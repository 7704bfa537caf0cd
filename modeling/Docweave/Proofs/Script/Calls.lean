import Docweave.Proofs.Script.Compiled

set_option autoImplicit false

/-! # Calls of a runner

A runner keeps the scripts that it has compiled from one call to the next. `answer_performAll` says
that its answers do not show it: after any calls, also such that fail, a runner answers as one that has
done nothing but to hold the same script in waiting. -/

namespace Docweave.ScriptRunner

open Docweave.Text

/-! ## Calls and answers -/

/-- What a runner can be asked for. -/
inductive Call where
  | compile (source : String)
  | execute (script : Script) (tree : Element)
  | run (source : String) (tree : Element)
  | prime (source : String)
  | runPrimed (tree : Element)
  | clearPrimed

/-- What a runner answers. -/
inductive Answer where
  | compiled (result : Except Failure Script)
  | ran (result : Except Failure ScriptOutput)
  | done

/-- The answer to a call, and the runner after it. -/
def answer (runner : ScriptRunner) : Call → Answer × ScriptRunner
  | .compile source => ((runner.compile source).map .compiled id)
  | .execute script tree => ((runner.execute script tree).map .ran id)
  | .run source tree => ((runner.run source tree).map .ran id)
  | .prime source => (.done, runner.prime source)
  | .runPrimed tree => ((runner.runPrimed tree).map .ran id)
  | .clearPrimed => (.done, runner.clearPrimed)

/-- The runner after some calls in order. -/
def performAll (runner : ScriptRunner) (calls : List Call) : ScriptRunner :=
  calls.foldl (fun runner call => (runner.answer call).2) runner

namespace Call

/-- The script that waits after a call, from the one that has waited before it. -/
def waiting (before : Option String) : Call → Option String
  | prime source => some source
  | clearPrimed => none
  | compile _ | execute .. | run .. | runPrimed _ => before

/-- The text whose script is needed for a call while some script waits. -/
def text? (waiting : Option String) : Call → Option String
  | compile source | run source _ => some source
  | runPrimed _ => waiting
  | execute .. | prime _ | clearPrimed => none

end Call

/-- The script that waits after some calls of a new runner. -/
def waitingAfter (calls : List Call) : Option String := calls.foldl Call.waiting none

/-- The texts whose scripts are needed for some calls, the first of them made while some script
waits. -/
def textsOf (waiting : Option String) : List Call → List String
  | [] => []
  | call :: rest => (call.text? waiting).toList ++ textsOf (call.waiting waiting) rest

theorem textsOf_append (waiting : Option String) (calls more : List Call) :
    textsOf waiting (calls ++ more) =
      textsOf waiting calls ++ textsOf (calls.foldl Call.waiting waiting) more := by
  induction calls generalizing waiting with
  | nil => rfl
  | cons call rest ih => simp only [List.cons_append, textsOf, ih, List.foldl_cons, List.append_assoc]

theorem primed_answer (runner : ScriptRunner) (call : Call) :
    (runner.answer call).2.primed = call.waiting runner.primed := by
  cases call with
  | compile source => exact runner.primed_compile source
  | run source tree => exact runner.primed_run source tree
  | execute | prime | clearPrimed => rfl
  | runPrimed tree =>
    show (runner.runPrimed tree).2.primed = runner.primed
    unfold runPrimed
    cases hp : runner.primed with
    | none => exact hp
    | some source => exact (runner.primed_run source tree).trans hp

/-! ## Answers from the cache -/

section Held

variable {texts : Set String} {runner : ScriptRunner} {call : Call}

/-- A call puts the script of the text that it needs into the cache, or nothing. -/
theorem Holds.answer (h : runner.Holds texts)
    (hmem : ∀ source, call.text? runner.primed = some source → source ∈ texts) :
    (runner.answer call).2.Holds texts := by
  cases call with
  | compile source => exact h.compile (hmem source rfl)
  | run source tree => exact h.run (hmem source rfl) tree
  | execute | prime | clearPrimed => exact h
  | runPrimed tree =>
    show (runner.runPrimed tree).2.Holds texts
    unfold runPrimed
    cases hp : runner.primed with
    | none => exact h
    | some source => exact h.run (hmem source hp) tree

theorem Holds.performAll {calls : List Call} (h : runner.Holds texts)
    (hmem : ∀ source ∈ textsOf runner.primed calls, source ∈ texts) :
    (runner.performAll calls).Holds texts ∧
      (runner.performAll calls).primed = calls.foldl Call.waiting runner.primed := by
  induction calls generalizing runner with
  | nil => exact ⟨h, rfl⟩
  | cons call rest ih =>
    have hcall : ∀ source, call.text? runner.primed = some source → source ∈ texts := by
      intro source hsource
      exact hmem source (List.mem_append_left _ (Option.mem_toList.2 hsource))
    have hrest : ∀ source ∈ textsOf (runner.answer call).2.primed rest, source ∈ texts := by
      intro source hsource
      rw [primed_answer] at hsource
      exact hmem source (List.mem_append_right _ hsource)
    obtain ⟨hholds, hprimed⟩ := ih (h.answer hcall) hrest
    rw [primed_answer] at hprimed
    exact ⟨hholds, hprimed⟩

/-- Two runners that hold scripts of some texts, and the same one in waiting, answer alike. -/
theorem answer_eq_of_holds (hdigests : CollisionFree texts) {other : ScriptRunner}
    (h : runner.Holds texts) (hother : other.Holds texts) (hprimed : runner.primed = other.primed)
    (hmem : ∀ source, call.text? runner.primed = some source → source ∈ texts) :
    (runner.answer call).1 = (other.answer call).1 := by
  have hrun : ∀ source ∈ texts, ∀ tree, (runner.run source tree).1 = (other.run source tree).1 := by
    intro source hsource tree
    rw [run_of_holds h hdigests hsource, run_of_holds hother hdigests hsource]
  cases call with
  | compile source =>
    have hsource := hmem source rfl
    show Answer.compiled (runner.compile source).1 = .compiled (other.compile source).1
    rw [compile_of_holds h hdigests hsource, compile_of_holds hother hdigests hsource]
  | run source tree => exact congrArg Answer.ran (hrun source (hmem source rfl) tree)
  | execute | prime | clearPrimed => rfl
  | runPrimed tree =>
    show Answer.ran (runner.runPrimed tree).1 = .ran (other.runPrimed tree).1
    unfold runPrimed
    rw [← hprimed]
    cases hp : runner.primed with
    | none => rfl
    | some source => exact congrArg Answer.ran (hrun source (hmem source hp) tree)

/-- A script that is found in the cache is that of the text asked for. -/
theorem parse_of_get? (hdigests : CollisionFree texts) (h : runner.Holds texts) {source : String}
    (hmem : source ∈ texts) {script : Script}
    (hget : runner.cache.get? (contentKey source.toList) = some script) :
    Script.parseText 0 (normalizeNewlines source.toList) = .ok script := by
  have hcompile := compile_of_holds h hdigests hmem
  unfold compile at hcompile
  simp only [hget] at hcompile
  unfold compileText at hcompile
  cases hparse : Script.parseText 0 (normalizeNewlines source.toList) with
  | error error => simp [hparse, Except.mapError] at hcompile
  | ok parsed =>
    simp only [hparse, Except.mapError, Except.ok.injEq] at hcompile
    rw [hcompile]

end Held

/-! ## Any calls -/

/-- After any calls a runner answers the next one as a new runner does in which the same script waits,
and what it finds in its cache is the script of the text asked for, read with its line ends normalized.
It is assumed that the texts whose scripts were needed can be told apart by their digests. -/
theorem answer_performAll (calls : List Call) (call : Call)
    (hdigests : CollisionFree {source | source ∈ textsOf none (calls ++ [call])}) :
    let used := fresh.performAll calls
    used.primed = waitingAfter calls ∧
      (used.answer call).1 = ({ fresh with primed := waitingAfter calls }.answer call).1 ∧
      ∀ source, call.text? (waitingAfter calls) = some source →
        ∀ script, used.cache.get? (contentKey source.toList) = some script →
          Script.parseText 0 (normalizeNewlines source.toList) = .ok script := by
  intro used
  have hneeded : ∀ source, call.text? (waitingAfter calls) = some source →
      source ∈ textsOf none (calls ++ [call]) := by
    intro source hsource
    rw [textsOf_append]
    refine List.mem_append_right _ ?_
    exact List.mem_append_left _ (Option.mem_toList.2 hsource)
  have hearlier : ∀ source ∈ textsOf none calls, source ∈ textsOf none (calls ++ [call]) := by
    intro source hsource
    rw [textsOf_append]
    exact List.mem_append_left _ hsource
  obtain ⟨hholds, hprimed⟩ := (holds_fresh _).performAll hearlier
  refine ⟨hprimed, ?_, ?_⟩
  · refine answer_eq_of_holds hdigests hholds (holds_fresh _) hprimed ?_
    rw [hprimed]
    exact hneeded
  · intro source hsource script hget
    exact parse_of_get? hdigests hholds (hneeded source hsource) hget

/-- A script that requires something of each record. -/
def requirement (lineEnd : String) : String := "assert ./x" ++ lineEnd ++ "reverse"

/-- The script is compiled with one kind of line end and fails on a record, another text is no script,
and then the script waits with the other kind of line end: it is taken from the cache. -/
theorem answer_performAll_requirement :
    let calls : List Call :=
      [.run (requirement "\r\n") (.ofChildren "r" [.ofTag "y"]), .compile "frobnicate",
        .prime (requirement "\n")]
    let call : Call := .runPrimed (.ofTag "r")
    CollisionFree {source | source ∈ textsOf none (calls ++ [call])} ∧
      ((fresh.performAll calls).answer call).1 =
        ({ fresh with primed := some (requirement "\n") }.answer call).1 := by
  intro calls call
  have hdigests : CollisionFree {source | source ∈ textsOf none (calls ++ [call])} := by
    have htexts : textsOf none (calls ++ [call]) =
      [requirement "\r\n", "frobnicate", requirement "\n"] := rfl
    have hpairs : ∀ a ∈ [requirement "\r\n", "frobnicate", requirement "\n"],
        ∀ b ∈ [requirement "\r\n", "frobnicate", requirement "\n"],
          contentKey a.toList = contentKey b.toList →
            normalizeNewlines a.toList = normalizeNewlines b.toList := by decide +kernel
    rw [htexts]
    exact hpairs
  exact ⟨hdigests, (answer_performAll calls call hdigests).2.1⟩

end Docweave.ScriptRunner
