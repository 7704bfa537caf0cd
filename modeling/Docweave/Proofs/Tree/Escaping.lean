import Docweave.Proofs.Text.Marks
import Docweave.Tree.Escape
import Mathlib.Logic.Function.Defs

set_option autoImplicit false

/-! # Escaping can be undone

Escaping writes each character as itself or as the reference for it (`IsWrittenAs`). From that alone it
follows that one pass over the references gives the text back, and that none of the characters that
are always referred to is left to end what surrounds the text (`isEscaping_flatMap`). -/

namespace Docweave

open Docweave.Text

/-! ## Resolving references -/

/-- A reference, from its ampersand to its semicolon. -/
structure Reference where
  /-- The characters that are written. -/
  written : List Char
  /-- The character that they stand for. -/
  char : Char
deriving DecidableEq, Repr

/-- The references that escaping writes. -/
def references : List Reference :=
  [⟨['&', 'a', 'm', 'p', ';'], '&'⟩, ⟨['&', 'l', 't', ';'], '<'⟩, ⟨['&', 'g', 't', ';'], '>'⟩,
    ⟨['&', 'q', 'u', 'o', 't', ';'], '"'⟩, ⟨['&', '#', '1', '0', ';'], '\n'⟩]

/-- The reference that a text starts with. -/
def referenceAt? (s : List Char) : Option Reference := references.find? (·.written.isPrefixOf s)

/-- Resolution while the first `skip` characters are already accounted for. -/
def resolveFrom : Nat → List Char → List Char
  | _, [] => []
  | skip + 1, _ :: rest => resolveFrom skip rest
  | 0, c :: rest =>
    match referenceAt? (c :: rest) with
    | some r => r.char :: resolveFrom (r.written.length - 1) rest
    | none => c :: resolveFrom 0 rest

/-- The text read once, from left to right, with the character for each reference. -/
def resolve (s : List Char) : List Char := resolveFrom 0 s

theorem resolveFrom_eq_resolve (skip : Nat) (s : List Char) :
    resolveFrom skip s = resolve (s.drop skip) := by
  induction s generalizing skip with
  | nil => simp [resolve, resolveFrom]
  | cons c rest ih =>
    cases skip with
    | zero => rfl
    | succ skip => rw [resolveFrom, ih, List.drop_succ_cons]

/-- Only the first character of a reference is an ampersand. -/
theorem exists_body {r : Reference} (h : r ∈ references) :
    ∃ body, r.written = '&' :: body ∧ '&' ∉ body := by
  have hall : ∀ r ∈ references, r.written = '&' :: r.written.tail ∧ '&' ∉ r.written.tail := by decide
  exact ⟨_, hall r h⟩

/-- The reference in front is the one that is found, as none starts with another one. -/
theorem referenceAt?_append {r : Reference} (h : r ∈ references) (s : List Char) :
    referenceAt? (r.written ++ s) = some r := by
  simp only [references, List.mem_cons, List.not_mem_nil, or_false] at h
  rcases h with rfl | rfl | rfl | rfl | rfl <;> rfl

theorem referenceAt?_cons {c : Char} (hc : c ≠ '&') (s : List Char) :
    referenceAt? (c :: s) = none := by
  refine List.find?_eq_none.2 fun r hr hprefix => hc ?_
  obtain ⟨body, hbody, -⟩ := exists_body hr
  rw [hbody, List.isPrefixOf_iff_prefix, List.cons_prefix_cons] at hprefix
  exact hprefix.1.symm

/-- A reference is resolved, and the pass goes on behind it. -/
theorem resolve_append {r : Reference} (h : r ∈ references) (s : List Char) :
    resolve (r.written ++ s) = r.char :: resolve s := by
  obtain ⟨body, hbody, -⟩ := exists_body h
  have hlength : r.written.length - 1 = body.length := by rw [hbody, List.length_cons, Nat.add_sub_cancel]
  have hat : referenceAt? ('&' :: (body ++ s)) = some r := by
    rw [← List.cons_append, ← hbody, referenceAt?_append h]
  rw [hbody, List.cons_append, resolve, resolveFrom, hat]
  simp only [hlength, resolveFrom_eq_resolve, List.drop_left]

/-- A character other than an ampersand is kept. -/
theorem resolve_cons {c : Char} (hc : c ≠ '&') (s : List Char) :
    resolve (c :: s) = c :: resolve s := by
  rw [resolve, resolveFrom, referenceAt?_cons hc]
  rfl

/-! ## Ampersands -/

/-- Each ampersand of the text starts a reference. -/
def AmpersandsRefer (s : List Char) : Prop :=
  ∀ before after, s = before ++ '&' :: after → ∃ r ∈ references, r.written <+: '&' :: after

theorem ampersandsRefer_nil : AmpersandsRefer [] := by
  intro before after h
  exact absurd h (by simp)

theorem ampersandsRefer_cons_iff {c : Char} {s : List Char} :
    AmpersandsRefer (c :: s) ↔
      (c = '&' → ∃ r ∈ references, r.written <+: c :: s) ∧ AmpersandsRefer s := by
  constructor
  · intro h
    refine ⟨?_, fun before after hs => h (c :: before) after (by rw [hs]; rfl)⟩
    rintro rfl
    exact h [] s rfl
  · rintro ⟨hhead, hrest⟩ before after heq
    cases before with
    | nil =>
      cases heq
      exact hhead rfl
    | cons d before =>
      cases heq
      exact hrest before after rfl

theorem AmpersandsRefer.append {s t : List Char} (hs : '&' ∉ s) (ht : AmpersandsRefer t) :
    AmpersandsRefer (s ++ t) := by
  induction s with
  | nil => exact ht
  | cons c s ih =>
    rw [List.mem_cons, not_or] at hs
    exact ampersandsRefer_cons_iff.2 ⟨fun hc => absurd hc.symm hs.1, ih hs.2⟩

theorem AmpersandsRefer.reference_append {r : Reference} (h : r ∈ references) {s : List Char}
    (hs : AmpersandsRefer s) : AmpersandsRefer (r.written ++ s) := by
  obtain ⟨body, hbody, hamp⟩ := exists_body h
  have hprefix : r.written <+: '&' :: (body ++ s) := by
    rw [hbody]
    exact List.prefix_append ('&' :: body) s
  rw [hbody]
  exact ampersandsRefer_cons_iff.2 ⟨fun _ => ⟨r, h, hprefix⟩, hs.append hamp⟩

/-! ## One character after the other -/

/-- A character is written as it is, which no ampersand and no mark is, or as the reference for it. -/
inductive IsWrittenAs (marks : List Char) (c : Char) (written : List Char) : Prop where
  | literal (hwritten : written = [c]) (hamp : c ≠ '&') (hmarks : c ∉ marks)
  | referred {r : Reference} (hr : r ∈ references) (hwritten : written = r.written)
    (hchar : r.char = c)

section Written

variable {marks : List Char} {write : Char → List Char} (hwrite : ∀ c, IsWrittenAs marks c (write c))

include hwrite

theorem resolve_flatMap (s : List Char) : resolve (s.flatMap write) = s := by
  induction s with
  | nil => rfl
  | cons c s ih =>
    rw [List.flatMap_cons]
    cases hwrite c with
    | literal hwritten hamp _ => rw [hwritten, List.singleton_append, resolve_cons hamp, ih]
    | referred hr hwritten hchar => rw [hwritten, resolve_append hr, hchar, ih]

theorem ampersandsRefer_flatMap (s : List Char) : AmpersandsRefer (s.flatMap write) := by
  induction s with
  | nil => exact ampersandsRefer_nil
  | cons c s ih =>
    rw [List.flatMap_cons]
    cases hwrite c with
    -- the ampersands of what follows are those that were there before
    | literal hwritten hamp _ =>
      rw [hwritten]
      exact ih.append (by simpa using hamp.symm)
    | referred hr hwritten _ =>
      rw [hwritten]
      exact ih.reference_append hr

/-- What is written are characters of the text, but no marks, and characters of references. -/
theorem mem_flatMap_written {s : List Char} {d : Char} (h : d ∈ s.flatMap write) :
    d ∈ s ∧ d ∉ marks ∨ ∃ r ∈ references, d ∈ r.written := by
  obtain ⟨c, hc, hd⟩ := List.mem_flatMap.1 h
  cases hwrite c with
  | literal hwritten _ hmarks =>
    rw [hwritten, List.mem_singleton] at hd
    subst hd
    exact .inl ⟨hc, hmarks⟩
  | referred hr hwritten _ => exact .inr ⟨_, hr, hwritten ▸ hd⟩

end Written

/-! ## Whole texts -/

/-- A way to write texts that can be undone, and that leaves no mark in them. -/
structure IsEscaping (marks : List Char) (escape : List Char → List Char) : Prop where
  /-- Resolving the references gives the text back. -/
  resolve_eq : ∀ s, resolve (escape s) = s
  /-- No two texts are written alike. -/
  injective : Function.Injective escape
  /-- None of the marks is written. -/
  unmarked : ∀ s, ∀ mark ∈ marks, mark ∉ escape s
  /-- An ampersand is only written as the start of a reference. -/
  refers : ∀ s, AmpersandsRefer (escape s)
  /-- The first mark is the one behind the text. -/
  ends : ∀ s, ∀ mark ∈ marks, ∀ rest,
    splitAtFirst? (· == mark) (escape s ++ mark :: rest) = some (escape s, rest)

theorem isEscaping_flatMap {marks : List Char} {write : Char → List Char}
    (hwrite : ∀ c, IsWrittenAs marks c (write c))
    (hmarks : ∀ r ∈ references, ∀ mark ∈ marks, mark ∉ r.written) :
    IsEscaping marks (·.flatMap write) := by
  have hunmarked : ∀ s : List Char, ∀ mark ∈ marks, mark ∉ s.flatMap write := by
    intro s mark hmark hmem
    rcases mem_flatMap_written hwrite hmem with ⟨-, hnot⟩ | ⟨r, hr, hwritten⟩
    · exact hnot hmark
    · exact hmarks r hr mark hmark hwritten
  have hresolve : Function.LeftInverse resolve (·.flatMap write) := resolve_flatMap hwrite
  exact {
    resolve_eq := hresolve
    injective := hresolve.injective
    unmarked := hunmarked
    refers := ampersandsRefer_flatMap hwrite
    ends := fun s mark hmark rest => splitAtFirst?_mark (hunmarked s mark hmark) rest }

theorem isWrittenAs_escapeTextChar (c : Char) : IsWrittenAs ['<', '>'] c (escapeTextChar c) := by
  unfold escapeTextChar
  split
  iterate 3 exact .referred (r := ⟨_, _⟩) (by decide) rfl rfl
  · next hamp hlt hgt => exact .literal rfl hamp (by simpa using ⟨hlt, hgt⟩)

theorem isWrittenAs_escapeValueChar (c : Char) :
    IsWrittenAs ['<', '>', '"', '\n'] c (escapeValueChar c) := by
  unfold escapeValueChar
  split
  iterate 5 exact .referred (r := ⟨_, _⟩) (by decide) rfl rfl
  · next hamp hlt hgt hquot hfeed => exact .literal rfl hamp (by simpa using ⟨hlt, hgt, hquot, hfeed⟩)

theorem isEscaping_escapeText : IsEscaping ['<', '>'] escapeText :=
  isEscaping_flatMap isWrittenAs_escapeTextChar (by simp [references])

theorem isEscaping_escapeValue : IsEscaping ['<', '>', '"', '\n'] escapeValue :=
  isEscaping_flatMap isWrittenAs_escapeValueChar (by simp [references])

/-- Escaped text, in an element or in a value, is read back by resolving its references, and holds none
of the characters that would end the tag or the value around it. -/
theorem isEscaping_text_value :
    IsEscaping ['<', '>'] escapeText ∧ IsEscaping ['<', '>', '"', '\n'] escapeValue :=
  ⟨isEscaping_escapeText, isEscaping_escapeValue⟩

/-- In a text that looks like a reference only the ampersand is written as one, and the pass does not
come back to what it has resolved. -/
example : escapeText ['&', 'l', 't', ';'] = ['&', 'a', 'm', 'p', ';', 'l', 't', ';'] ∧
    resolve ['&', 'a', 'm', 'p', ';', 'l', 't', ';'] = ['&', 'l', 't', ';'] := by
  decide

end Docweave
