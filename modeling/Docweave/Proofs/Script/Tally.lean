import Docweave.Proofs.Script.Calls
import Docweave.Proofs.Text.LineEnds
import Mathlib.Data.Finset.Card
import Mathlib.Data.Finset.Image

set_option autoImplicit false

/-! # What a runner counts

A runner counts the scripts that it compiles and the runs that it begins. `counts_performAll` says what
the numbers are after any calls: one compilation for each script that the cache holds, which is one for
each text that was asked for with success, whatever its line ends, and one execution for each script
that was begun, whether or not it came to its end. -/

namespace Docweave

open Docweave.Text

/-! ## The digests of a cache -/

namespace ContentCache

variable {α : Type}

/-- The digests that there is a value under. -/
def keys (cache : ContentCache α) : List Digest := cache.entries.map (·.1)

theorem length_keys (cache : ContentCache α) : cache.keys.length = cache.size := List.length_map _

theorem mem_keys_iff {cache : ContentCache α} {key : Digest} :
    key ∈ cache.keys ↔ ∃ value, cache.get? key = some value := by
  unfold keys get?
  rw [List.mem_map]
  constructor
  · rintro ⟨entry, hentry, rfl⟩
    have hfound : (cache.entries.find? (·.1 == entry.1)).isSome := by
      rw [List.find?_isSome]
      exact ⟨entry, hentry, beq_self_eq_true _⟩
    obtain ⟨found, hfound⟩ := Option.isSome_iff_exists.1 hfound
    exact ⟨found.2, by rw [hfound, Option.map_some]⟩
  · rintro ⟨value, hvalue⟩
    obtain ⟨entry, hentry, -⟩ := Option.map_eq_some_iff.1 hvalue
    have hkey := List.find?_some hentry
    exact ⟨entry, List.mem_of_find?_eq_some hentry, beq_iff_eq.1 hkey⟩

theorem notMem_keys_iff {cache : ContentCache α} {key : Digest} :
    key ∉ cache.keys ↔ cache.get? key = none := by
  rw [mem_keys_iff, ← Option.isSome_iff_exists, Option.not_isSome_iff_eq_none]

/-- A value under a new digest comes last. -/
theorem keys_insert {cache : ContentCache α} {key : Digest} (h : key ∉ cache.keys) (value : α) :
    (cache.insert key value).keys = cache.keys ++ [key] := by
  obtain ⟨entries⟩ := cache
  unfold insert
  induction entries with
  | nil => rfl
  | cons entry rest ih =>
    have hne : entry.1 ≠ key := fun heq => h (heq ▸ List.mem_cons_self)
    have hrest : key ∉ keys ⟨rest⟩ := fun hmem => h (List.mem_cons_of_mem _ hmem)
    simpa [keys, putEntry, hne] using ih hrest

end ContentCache

namespace ScriptRunner

variable {runner : ScriptRunner} {texts : List String}

/-! ## What a call does

A text is compiled with success if there is an answer for it, be it an old one. An execution is begun
by a call that has a script in hand, and counts whatever becomes of it. -/

/-- The text that a call asks a script for, if the script is found or compiled. -/
def compiledText? (runner : ScriptRunner) (call : Call) : Option String :=
  (call.text? runner.primed).filter fun source => (runner.compile source).1.isOk

/-- The script that a call begins to execute, and the tree that it is bound to. -/
def execution? (runner : ScriptRunner) : Call → Option (Script × Element)
  | .execute script tree => some (script, tree)
  | .run source tree => (runner.compile source).1.toOption.map fun script => (script, tree)
  | .runPrimed tree =>
    runner.primed.bind fun source =>
      (runner.compile source).1.toOption.map fun script => (script, tree)
  | .compile _ | .prime _ | .clearPrimed => none

/-- The texts that some calls have asked scripts for with success. -/
def compiledTexts (runner : ScriptRunner) : List Call → List String
  | [] => []
  | call :: rest => (runner.compiledText? call).toList ++ (runner.answer call).2.compiledTexts rest

/-- The executions that some calls have begun. -/
def executed (runner : ScriptRunner) : List Call → List (Script × Element)
  | [] => []
  | call :: rest => (runner.execution? call).toList ++ (runner.answer call).2.executed rest

/-- A request for a script ends in one of three ways: it is held already, its text is no script, or it
is compiled and held from now on. -/
theorem compile_cases (runner : ScriptRunner) (source : String) :
    (∃ script, runner.cache.get? (contentKey source.toList) = some script ∧
      runner.compile source = (.ok script, runner)) ∨
    (∃ failure, runner.compile source = (.error failure, runner)) ∨
    ∃ script, contentKey source.toList ∉ runner.cache.keys ∧
      runner.compile source = (.ok script,
        { runner with
          compilations := runner.compilations + 1
          cache := runner.cache.insert (contentKey source.toList) script }) := by
  unfold compile
  cases hget : runner.cache.get? (contentKey source.toList) with
  | some script => exact .inl ⟨script, rfl, by simp [hget]⟩
  | none =>
    right
    cases hscript : compileText source with
    | error failure => exact .inl ⟨failure, by simp [hget]⟩
    | ok script => exact .inr ⟨script, ContentCache.notMem_keys_iff.2 hget, by simp [hget]⟩

/-! ## Executions -/

theorem executions_compile (runner : ScriptRunner) (source : String) :
    (runner.compile source).2.executions = runner.executions := by
  obtain ⟨script, -, h⟩ | ⟨failure, h⟩ | ⟨script, -, h⟩ := runner.compile_cases source <;> rw [h]

theorem executions_run (runner : ScriptRunner) (source : String) (tree : Element) :
    (runner.run source tree).2.executions =
      runner.executions + (runner.execution? (.run source tree)).toList.length := by
  have hcompile := runner.executions_compile source
  cases hc : runner.compile source with
  | mk result compiled =>
    rw [hc] at hcompile
    cases result with
    | ok script => simpa [run, execution?, hc, execute, Except.toOption] using hcompile
    | error failure => simpa [run, execution?, hc, Except.toOption] using hcompile

/-- A call adds one to the executions just if it begins one. -/
theorem executions_answer (runner : ScriptRunner) (call : Call) :
    (runner.answer call).2.executions =
      runner.executions + (runner.execution? call).toList.length := by
  cases call with
  | compile source => exact runner.executions_compile source
  | run source tree => exact runner.executions_run source tree
  | execute | prime | clearPrimed => rfl
  | runPrimed tree =>
    show (runner.runPrimed tree).2.executions = _
    unfold runPrimed execution?
    cases hp : runner.primed with
    | none => rfl
    | some source => exact runner.executions_run source tree

theorem executions_performAll (runner : ScriptRunner) (calls : List Call) :
    (runner.performAll calls).executions =
      runner.executions + (runner.executed calls).length := by
  induction calls generalizing runner with
  | nil => rfl
  | cons call rest ih =>
    have hrest := ih (runner.answer call).2
    rw [executions_answer] at hrest
    rw [executed, List.length_append, ← Nat.add_assoc]
    exact hrest

/-! ## Compilations -/

/-- The cache holds one script for each digest of the texts, and each was compiled once. -/
structure Tallies (texts : List String) (runner : ScriptRunner) : Prop where
  compilations_eq : runner.compilations = runner.cache.size
  nodup_keys : runner.cache.keys.Nodup
  mem_keys_iff : ∀ key, key ∈ runner.cache.keys ↔ ∃ source ∈ texts, contentKey source.toList = key

theorem tallies_fresh : Tallies [] fresh := by
  refine ⟨rfl, List.nodup_nil, ?_⟩
  intro key
  simp [fresh, ContentCache.empty, ContentCache.keys]

/-- Only the cache and the number of compilations matter. -/
theorem Tallies.of_eq (h : runner.Tallies texts) {other : ScriptRunner}
    (hcache : other.cache = runner.cache) (hcount : other.compilations = runner.compilations) :
    other.Tallies texts := by
  obtain ⟨hcompilations, hnodup, hkeys⟩ := h
  refine ⟨?_, ?_, ?_⟩
  · rw [hcount, hcache, hcompilations]
  · rwa [hcache]
  · rwa [hcache]

theorem exists_mem_concat_iff {source : String} {key : Digest} :
    (∃ text ∈ texts ++ [source], contentKey text.toList = key) ↔
      (∃ text ∈ texts, contentKey text.toList = key) ∨ contentKey source.toList = key := by
  simp only [List.mem_append, List.mem_singleton, or_and_right, exists_or, exists_eq_left]

/-- A text whose digest is there, from itself or from another one, adds nothing. -/
theorem Tallies.held (h : runner.Tallies texts) {source : String}
    (hheld : contentKey source.toList ∈ runner.cache.keys) : runner.Tallies (texts ++ [source]) := by
  refine ⟨h.compilations_eq, h.nodup_keys, ?_⟩
  intro key
  rw [exists_mem_concat_iff, ← h.mem_keys_iff]
  constructor
  · exact .inl
  · rintro (hkey | rfl)
    · exact hkey
    · exact hheld

/-- A script that is compiled adds a digest. -/
theorem Tallies.compiled (h : runner.Tallies texts) {source : String}
    (hnew : contentKey source.toList ∉ runner.cache.keys) (script : Script) :
    Tallies (texts ++ [source])
      { runner with
        compilations := runner.compilations + 1
        cache := runner.cache.insert (contentKey source.toList) script } := by
  have hkeys := ContentCache.keys_insert hnew script
  refine ⟨?_, ?_, ?_⟩
  · rw [← ContentCache.length_keys, hkeys, List.length_append, ContentCache.length_keys,
      h.compilations_eq]
    rfl
  · rw [hkeys, List.nodup_append]
    refine ⟨h.nodup_keys, List.nodup_singleton _, ?_⟩
    intro key hmem other hother heq
    rw [List.mem_singleton] at hother
    exact hnew (hother ▸ heq ▸ hmem)
  · intro key
    rw [exists_mem_concat_iff, ← h.mem_keys_iff, hkeys, List.mem_append, List.mem_singleton,
      eq_comm (a := key)]

theorem Tallies.compile (h : runner.Tallies texts) (source : String) :
    (runner.compile source).2.Tallies
      (texts ++ (runner.compiledText? (.compile source)).toList) := by
  have htext : runner.compiledText? (.compile source) =
    if (runner.compile source).1.isOk then some source else none := rfl
  rw [htext]
  obtain ⟨script, hget, hc⟩ | ⟨failure, hc⟩ | ⟨script, hnew, hc⟩ := runner.compile_cases source
  · have hheld := ContentCache.mem_keys_iff.2 ⟨script, hget⟩
    rw [hc]
    exact h.held hheld
  · rw [hc]
    simpa [Except.isOk, Except.toBool] using h
  · rw [hc]
    exact h.compiled hnew script

/-- A script is run after it was compiled, which changes neither the cache nor its count. -/
theorem Tallies.run (h : runner.Tallies texts) (source : String) (tree : Element) :
    (runner.run source tree).2.Tallies
      (texts ++ (runner.compiledText? (.run source tree)).toList) := by
  refine (h.compile source).of_eq ?_ ?_
  all_goals
    unfold ScriptRunner.run
    cases hc : runner.compile source with
    | mk result compiled => cases result <;> rfl

theorem Tallies.answer (h : runner.Tallies texts) (call : Call) :
    (runner.answer call).2.Tallies (texts ++ (runner.compiledText? call).toList) := by
  have hnone : runner.Tallies (texts ++ []) := by rwa [List.append_nil]
  cases call with
  | compile source => exact h.compile source
  | run source tree => exact h.run source tree
  | execute | prime | clearPrimed => exact hnone.of_eq rfl rfl
  | runPrimed tree =>
    show (runner.runPrimed tree).2.Tallies _
    unfold runPrimed compiledText?
    cases hp : runner.primed with
    | none => exact hnone
    | some source => exact h.run source tree

theorem Tallies.performAll (h : runner.Tallies texts) (calls : List Call) :
    (runner.performAll calls).Tallies (texts ++ runner.compiledTexts calls) := by
  induction calls generalizing runner texts with
  | nil =>
    rw [compiledTexts, List.append_nil]
    exact h
  | cons call rest ih =>
    rw [compiledTexts, ← List.append_assoc]
    exact ih (h.answer call)

/-- A text that was asked for with success was asked for. -/
theorem mem_textsOf_of_mem_compiledTexts {source : String} {calls : List Call}
    (h : source ∈ runner.compiledTexts calls) : source ∈ textsOf runner.primed calls := by
  induction calls generalizing runner with
  | nil => cases h
  | cons call rest ih =>
    rw [compiledTexts, List.mem_append] at h
    rw [textsOf, List.mem_append]
    rcases h with h | h
    · left
      rw [Option.mem_toList] at h ⊢
      exact (Option.filter_eq_some_iff.1 h).1
    · right
      rw [← primed_answer]
      exact ih h

/-- The digests that are there are those of the texts, so that there are as many as texts with
different line ends left out, unless two of the digests collide. -/
theorem Tallies.compilations_eq_card (h : runner.Tallies texts)
    (hdigests : CollisionFree {source | source ∈ texts}) :
    runner.compilations =
      (texts.map fun source => normalizeNewlines source.toList).toFinset.card := by
  have hkeys : runner.cache.keys.toFinset =
      (texts.map fun source => normalizeNewlines source.toList).toFinset.image Digest.ofText := by
    ext key
    simp [h.mem_keys_iff, contentKey]
  have hinjective : Set.InjOn Digest.ofText
      (texts.map fun source => normalizeNewlines source.toList).toFinset := by
    intro a ha b hb hab
    rw [Finset.mem_coe, List.mem_toFinset, List.mem_map] at ha hb
    obtain ⟨source, hsource, rfl⟩ := ha
    obtain ⟨other, hother, rfl⟩ := hb
    exact hdigests source hsource other hother hab
  rw [h.compilations_eq, ← ContentCache.length_keys, ← List.toFinset_card_of_nodup h.nodup_keys,
    hkeys, Finset.card_image_of_injOn hinjective]

/-- A text that was asked for with success is found in the cache, whatever its line ends are then. -/
theorem Tallies.compile_eq (h : runner.Tallies texts) {source : String} (hmem : source ∈ texts) :
    ∃ script, ∀ other : String, SameLines source.toList other.toList →
      runner.compile other = (.ok script, runner) := by
  obtain ⟨script, hget⟩ := ContentCache.mem_keys_iff.1 ((h.mem_keys_iff _).2 ⟨source, hmem, rfl⟩)
  refine ⟨script, fun other hsame => ?_⟩
  have hkey : contentKey other.toList = contentKey source.toList := by
    unfold contentKey
    rw [normalizeNewlines_eq_of_sameLines hsame]
  unfold ScriptRunner.compile
  simp [hkey, hget]

/-! ## Any calls -/

/-- Whatever a new runner is asked for, it has compiled as many scripts as its cache holds, which is
the number of different texts among those that scripts were asked for with success, line ends apart;
it has executed as many scripts as were begun; and of two texts that only differ in their line ends
either finds the entry that the other one has brought in. It is assumed that the texts whose scripts
were needed can be told apart by their digests. -/
theorem counts_performAll (calls : List Call)
    (hdigests : CollisionFree {source | source ∈ textsOf none calls}) :
    let used := fresh.performAll calls
    used.compilations = used.cache.size ∧
      used.compilations =
        ((fresh.compiledTexts calls).map fun source => normalizeNewlines source.toList).toFinset.card ∧
      used.executions = (fresh.executed calls).length ∧
      ∀ source other : String, SameLines source.toList other.toList →
        contentKey source.toList = contentKey other.toList ∧
          (source ∈ fresh.compiledTexts calls →
            ∃ script, used.compile source = (.ok script, used) ∧
              used.compile other = (.ok script, used)) := by
  intro used
  have htallies : used.Tallies (fresh.compiledTexts calls) := tallies_fresh.performAll calls
  have hcollisionFree : CollisionFree {source | source ∈ fresh.compiledTexts calls} := by
    intro a ha b hb
    exact hdigests a (mem_textsOf_of_mem_compiledTexts ha) b (mem_textsOf_of_mem_compiledTexts hb)
  have hexecutions : used.executions = 0 + (fresh.executed calls).length :=
    fresh.executions_performAll calls
  rw [Nat.zero_add] at hexecutions
  refine ⟨htallies.compilations_eq, htallies.compilations_eq_card hcollisionFree, hexecutions, ?_⟩
  intro source other hsame
  refine ⟨congrArg Digest.ofText (normalizeNewlines_eq_of_sameLines hsame), fun hmem => ?_⟩
  obtain ⟨script, hscript⟩ := htallies.compile_eq hmem
  exact ⟨script, hscript source (.last _), hscript other hsame⟩

/-- A script is run twice, with either line end, and stops at a record once; a text that is no script
and a call without a script in waiting come between. -/
def requirementCalls : List Call :=
  [.run (requirement "\r\n") (.ofChildren "r" [.ofTag "y"]), .runPrimed (.ofTag "r"),
    .compile "frobnicate", .prime (requirement "\n"), .runPrimed (.ofTag "r")]

/-- The two texts of the script are one compilation, and the execution that stopped counts. -/
theorem counts_performAll_requirementCalls :
    CollisionFree {source | source ∈ textsOf none requirementCalls} ∧
      fresh.compiledTexts requirementCalls = [requirement "\r\n", requirement "\n"] ∧
      (fresh.performAll requirementCalls).compilations = 1 ∧
      (fresh.performAll requirementCalls).executions = 2 := by
  have hpairs : ∀ a ∈ textsOf none requirementCalls, ∀ b ∈ textsOf none requirementCalls,
      contentKey a.toList = contentKey b.toList →
        normalizeNewlines a.toList = normalizeNewlines b.toList := by decide +kernel
  have htexts : fresh.compiledTexts requirementCalls =
      [requirement "\r\n", requirement "\n"] := by decide +kernel
  have hexecuted : (fresh.executed requirementCalls).length = 2 := by decide +kernel
  obtain ⟨-, hcompilations, hexecutions, -⟩ := counts_performAll requirementCalls hpairs
  rw [htexts] at hcompilations
  rw [hexecuted] at hexecutions
  exact ⟨hpairs, htexts, hcompilations.trans (by decide +kernel), hexecutions⟩

end ScriptRunner

end Docweave
