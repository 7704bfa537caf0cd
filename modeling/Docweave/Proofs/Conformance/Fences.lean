import Docweave.Conformance.TestFile
import Docweave.Proofs.Text.Spaced
import Docweave.Proofs.Toml.Rests
import Mathlib.Data.List.Basic

set_option autoImplicit false

/-! # Between the fences

A test file is written as settings between fences with a model behind them. `TestFile.read_written` says
that these two parts are read back from it, however its lines end, unless a line of the settings starts
with a fence. In the model anything may stand, fences too. -/

namespace Docweave

open Docweave.Text

namespace Text

/-! ## The first place of a text in another -/

theorem stripStart?_eq_some_iff {start s rest : List Char} :
    stripStart? start s = some rest ↔ start ++ rest = s :=
  List.isPrefixOf?_eq_some_iff_append_eq

/-- A mark that cannot overlap itself is first found where it was put behind a text without it. -/
theorem splitAtText?_mark {first : Char} {more before : List Char} (hfirst : first ∉ more)
    (h : ¬ first :: more <:+: before) (after : List Char) :
    splitAtText? (first :: more) (before ++ (first :: more ++ after)) = some (before, after) := by
  induction before with
  | nil =>
    have hstrip : stripStart? (first :: more) (first :: (more ++ after)) = some after :=
      stripStart?_eq_some_iff.2 rfl
    rw [List.nil_append, List.cons_append, splitAtText?, hstrip]
  | cons c before ih =>
    have hbefore : ¬ first :: more <:+: before := fun hinner =>
      h (hinner.trans (List.suffix_cons c before).isInfix)
    have hstrip : stripStart? (first :: more) (c :: (before ++ (first :: more ++ after))) = none := by
      rw [Option.eq_none_iff_forall_ne_some]
      intro rest hrest
      have hrest := stripStart?_eq_some_iff.1 hrest
      rw [← List.cons_append] at hrest
      rcases List.append_eq_append_iff.1 hrest with ⟨taken, hc, -⟩ | ⟨taken, hmark, htaken⟩
      · exact h (hc ▸ (List.prefix_append _ _).isInfix)
      · -- the mark would start again inside itself
        obtain ⟨rfl, hmore⟩ := List.cons.inj hmark
        cases taken with
        | nil => exact h (hmark ▸ List.append_nil _ ▸ List.infix_rfl)
        | cons d taken =>
          obtain ⟨rfl, -⟩ := List.cons.inj htaken
          exact hfirst (hmore ▸ List.mem_append_right before List.mem_cons_self)
    rw [List.cons_append, splitAtText?, hstrip, ih hbefore]
    rfl

/-- A mark in a text does not reach into an appended one that has neither its first nor its last
character. -/
theorem infix_of_infix_append {mark s tail : List Char} {first last : Char}
    (hfirst : mark.head? = some first) (hlast : mark.getLast? = some last) (hnotFirst : first ∉ tail)
    (hnotLast : last ∉ tail) (h : mark <:+: s ++ tail) : mark <:+: s := by
  rcases List.infix_append_iff.1 h with hs | htail | ⟨early, late, rfl, hearly, hlate⟩
  · exact hs
  · exact absurd (htail.subset (List.mem_of_head? hfirst)) hnotFirst
  · cases hend : late.getLast? with
    | none =>
      rw [List.getLast?_eq_none_iff.1 hend, List.append_nil]
      exact hearly.isInfix
    | some c =>
      rw [List.getLast?_append, hend] at hlast
      cases hlast
      exact absurd (hlate.subset (List.mem_of_getLast? hend)) hnotLast

end Text

/-! ## The two parts of a file -/

theorem dropEndWhile_append_returns (s : List Char) (count : Nat) :
    dropEndWhile (· = '\r') (s ++ List.replicate count '\r') = dropEndWhile (· = '\r') s :=
  dropEndWhile_append_of_pos (fun _ hc => decide_eq_true (List.eq_of_mem_replicate hc)) s

theorem skipLineEnd_chars (lineEnd : LineEnd) (s : List Char) :
    skipLineEnd (lineEnd.chars ++ s) = s := by
  cases lineEnd <;> rfl

namespace TestFile

/-- No line of the settings starts with a fence, except perhaps the first. -/
def IsUnfenced (settings : List Char) : Prop := ¬ '\n' :: fence <:+: settings

instance (settings : List Char) : Decidable (IsUnfenced settings) :=
  inferInstanceAs (Decidable (¬ _))

theorem IsUnfenced.append_returns {settings : List Char} (h : IsUnfenced settings) (count : Nat) :
    IsUnfenced (settings ++ List.replicate count '\r') := by
  intro hfence
  refine h (infix_of_infix_append rfl rfl ?_ ?_ hfence) <;>
    exact fun hmem => absurd (List.eq_of_mem_replicate hmem) (by decide)

theorem splitAtText?_fence {settings : List Char} (h : IsUnfenced settings) (lineEnd : LineEnd)
    (rest : List Char) :
    ∃ returns, splitAtText? ('\n' :: fence) (settings ++ (lineEnd.chars ++ (fence ++ rest))) =
      some (settings ++ List.replicate returns '\r', rest) := by
  have hnotMem : '\n' ∉ fence := by decide
  cases lineEnd with
  | lf =>
    refine ⟨0, ?_⟩
    rw [List.replicate_zero, List.append_nil]
    exact splitAtText?_mark hnotMem h rest
  | crlf =>
    refine ⟨1, ?_⟩
    have hmark := splitAtText?_mark hnotMem (h.append_returns 1) rest
    rwa [List.append_assoc] at hmark

/-- A file is cut where it was put together, but for carriage returns behind the settings. -/
theorem split_written (marks : Nat) (lineEnd : LineEnd) {settings : List Char}
    (h : IsUnfenced settings) (model : List Char) :
    split (List.replicate marks '\uFEFF' ++ written lineEnd ⟨settings, model⟩) =
      .ok ⟨dropEndWhile (· = '\r') settings, model⟩ := by
  obtain ⟨returns, hcut⟩ := splitAtText?_fence h lineEnd (lineEnd.chars ++ model)
  have hopened : (List.replicate marks '\uFEFF' ++ written lineEnd ⟨settings, model⟩).dropWhile
      (· = '\uFEFF') =
      fence ++ (lineEnd.chars ++ (settings ++ (lineEnd.chars ++ (fence ++ (lineEnd.chars ++ model))))) := by
    rw [List.dropWhile_append_of_pos fun c hc => decide_eq_true (List.eq_of_mem_replicate hc)]
    simp only [written, List.append_assoc]
    rfl
  unfold split
  rw [hopened, stripStart?_eq_some_iff.2 rfl]
  dsimp only
  rw [skipLineEnd_chars, hcut]
  dsimp only
  rw [skipLineEnd_chars, dropEndWhile_append_returns]

/-- Settings that are read do not end in a carriage return, so that those behind them do not count. -/
theorem dropEndWhile_settings {settings : List Char} {given : TestSettings}
    (h : TestSettings.parse settings = .ok given) (returns : Nat) :
    dropEndWhile (· = '\r') (settings ++ List.replicate returns '\r') = settings := by
  rw [dropEndWhile_append_returns]
  unfold TestSettings.parse at h
  cases hparse : Toml.parse settings with
  | error problem =>
    rw [hparse] at h
    cases h
  | ok entries =>
    refine dropEndWhile_eq_self fun c hc => decide_eq_false ?_
    rintro rfl
    exact Toml.getLast?_ne_return_of_parse hparse hc

/-- Settings and a model that are written between fences are read back, the model to the letter. Byte
order marks in front of the file and carriage returns behind the settings do not matter. -/
theorem read_written {settings : List Char} {given : TestSettings} (hfence : IsUnfenced settings)
    (hgiven : TestSettings.parse settings = .ok given) (marks returns : Nat) (lineEnd : LineEnd)
    (model : String) :
    read (List.replicate marks '\uFEFF' ++
      written lineEnd ⟨settings ++ List.replicate returns '\r', model.toList⟩) =
        .ok (given, model) := by
  unfold read
  rw [split_written marks lineEnd (hfence.append_returns returns)]
  dsimp only [bind, Except.bind]
  rw [dropEndWhile_settings hgiven, hgiven]
  dsimp only
  rw [String.ofList_toList]
  rfl

/-- A model that starts with a blank line and has a fence in it, behind a byte order mark and settings
that end in a line feed of their own. -/
theorem read_written_fencedModel :
    let settings := "# --- 1\nexpect_output = \"a\"\n".toList
    let given : TestSettings := ⟨none, some "a", none, false, [], none⟩
    IsUnfenced settings ∧ TestSettings.parse settings = .ok given ∧
      read (List.replicate 1 '\uFEFF' ++
        written .crlf ⟨settings ++ List.replicate 1 '\r', "\r\n---\r\n<a/>".toList⟩) =
          .ok (given, "\r\n---\r\n<a/>") := by
  have hfence : IsUnfenced "# --- 1\nexpect_output = \"a\"\n".toList := by decide +kernel
  have hgiven : TestSettings.parse "# --- 1\nexpect_output = \"a\"\n".toList =
      .ok ⟨none, some "a", none, false, [], none⟩ := by decide +kernel
  exact ⟨hfence, hgiven, read_written hfence hgiven 1 1 .crlf "\r\n---\r\n<a/>"⟩

end TestFile

end Docweave
