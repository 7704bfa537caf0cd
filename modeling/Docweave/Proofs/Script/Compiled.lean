import Docweave.Script.Runner
import Mathlib.Data.Set.Basic

set_option autoImplicit false

/-! # Scripts from the cache

A runner that holds compiled scripts answers like one that holds none, as long as no two texts that it
was ever asked for share a digest without being the same up to line ends. `Holds texts` is what a
runner keeps to: each script in its cache is that of one of the texts. -/

namespace Docweave

open Docweave.Text

/-! ## Digests -/

/-- Texts share a digest only if they are the same up to line ends. -/
def CollisionFree (texts : Set String) : Prop :=
  ∀ a ∈ texts, ∀ b ∈ texts, contentKey a.toList = contentKey b.toList →
    normalizeNewlines a.toList = normalizeNewlines b.toList

namespace ScriptRunner

variable {texts : Set String} {runner : ScriptRunner} {source : String}

/-- Only the line ends of a text can differ without a difference for its script. -/
theorem compileText_congr {a b : String}
    (h : normalizeNewlines a.toList = normalizeNewlines b.toList) : compileText a = compileText b := by
  unfold compileText
  rw [h]

/-! ## The script in waiting -/

theorem primed_compile (runner : ScriptRunner) (source : String) :
    (runner.compile source).2.primed = runner.primed := by
  unfold compile
  simp only
  split
  · rfl
  · split <;> rfl

/-- A script that runs leaves the one that waits. -/
theorem primed_run (runner : ScriptRunner) (source : String) (tree : Element) :
    (runner.run source tree).2.primed = runner.primed := by
  have h := runner.primed_compile source
  unfold run
  cases hc : runner.compile source with
  | mk result compiled =>
    rw [hc] at h
    cases result with
    | ok script => exact h
    | error failure => exact h

/-! ## What the cache holds -/

/-- Every script in the cache is that of one of the texts, under the digest of that text. -/
def Holds (texts : Set String) (runner : ScriptRunner) : Prop :=
  ∀ key script, runner.cache.get? key = some script →
    ∃ source ∈ texts, contentKey source.toList = key ∧ compileText source = .ok script

theorem holds_fresh (texts : Set String) : Holds texts fresh := by
  intro key script h
  cases h

theorem Holds.mono {more : Set String} (h : runner.Holds texts) (hsub : texts ⊆ more) :
    runner.Holds more := by
  intro key script hget
  obtain ⟨source, hmem, hkey, hscript⟩ := h key script hget
  exact ⟨source, hsub hmem, hkey, hscript⟩

section Compile

variable (h : runner.Holds texts) (hdigests : CollisionFree texts) (hmem : source ∈ texts)

include h hmem

/-- A script that was not in the cache is put there under the digest of its own text. -/
theorem Holds.compile : (runner.compile source).2.Holds texts := by
  unfold ScriptRunner.compile
  simp only
  cases runner.cache.get? (contentKey source.toList) with
  | some script => exact h
  | none =>
    cases hscript : compileText source with
    | error failure => exact h
    | ok script =>
      intro key found hget
      by_cases hkey : key = contentKey source.toList
      · subst hkey
        simp only [ContentCache.get?_insert_self, Option.some.injEq] at hget
        exact ⟨source, hmem, rfl, hget ▸ hscript⟩
      · simp only [ContentCache.get?_insert_of_ne _ _ hkey] at hget
        exact h key found hget

theorem Holds.run (tree : Element) : (runner.run source tree).2.Holds texts := by
  have hcompile := h.compile hmem
  unfold ScriptRunner.run
  cases hc : runner.compile source with
  | mk result compiled =>
    rw [hc] at hcompile
    cases result with
    | ok script => exact hcompile
    | error failure => exact hcompile

include hdigests

/-- Whether the cache has the script or not, it is the one that is read from the text anew. -/
theorem compile_of_holds : (runner.compile source).1 = compileText source := by
  unfold ScriptRunner.compile
  simp only
  cases hget : runner.cache.get? (contentKey source.toList) with
  | some script =>
    obtain ⟨other, hother, hkey, hscript⟩ := h _ _ hget
    -- the text that the script was read from is the one asked for, up to line ends
    have hsame := hdigests other hother source hmem hkey
    exact (compileText_congr hsame ▸ hscript).symm
  | none => cases compileText source <;> rfl

theorem run_of_holds (tree : Element) : (runner.run source tree).1 =
    (compileText source).bind fun script => (script.execute tree).mapError .scriptExecution := by
  have hcompile := compile_of_holds h hdigests hmem
  unfold ScriptRunner.run
  cases hc : runner.compile source with
  | mk result compiled =>
    rw [hc] at hcompile
    rw [← hcompile]
    cases result with
    | ok script => rfl
    | error failure => rfl

end Compile

end ScriptRunner

end Docweave
