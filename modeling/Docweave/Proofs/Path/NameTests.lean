import Docweave.Path.Parser
import Docweave.Proofs.Text.Marks
import Docweave.Proofs.Text.Spaced

set_option autoImplicit false

/-! # How a name test is written

A name test is a star, or a name: alone, behind a prefix, or behind a namespace in braces.
`readNameTest?_eq_some_iff` says that reading accepts just these texts, and what it takes them for. -/

namespace Docweave

open Docweave.Text

/-- How a name test is written. A prefix has no part in what it means. -/
inductive NameTest.WrittenAs : NameTest → List Char → Prop
  | any : WrittenAs .any ['*']
  | tagged {base : List Char} (h : isPathName base = true) : WrittenAs (.tagged (.ofList base)) base
  | prefixed {lead base : List Char} (hlead : isPathName lead = true) (h : isPathName base = true) :
      WrittenAs (.tagged (.ofList base)) (lead ++ ':' :: base)
  | inNamespace {uri base : List Char} (huri : '\x7d' ∉ uri) (h : isPathName base = true) :
      WrittenAs (.inNamespace (.ofList uri) (.ofList base)) ('\x7b' :: (uri ++ '\x7d' :: base))

theorem isPathNameChar_of_isPathName {name : List Char} (h : isPathName name = true) {c : Char}
    (hc : c ∈ name) : isPathNameChar c = true := by
  cases name with
  | nil => cases h
  | cons d rest =>
    simp only [isPathName, Bool.and_eq_true] at h
    exact List.all_eq_true.1 h.1.1 c hc

theorem notMem_of_isPathName {name : List Char} (h : isPathName name = true) {c : Char}
    (hc : isPathNameChar c = false) : c ∉ name := by
  intro hmem
  rw [isPathNameChar_of_isPathName h hmem] at hc
  cases hc

theorem exists_cons_of_isPathName {name : List Char} (h : isPathName name = true) :
    ∃ c rest, name = c :: rest ∧ isPathNameChar c = true := by
  cases name with
  | nil => cases h
  | cons c rest => exact ⟨c, rest, rfl, isPathNameChar_of_isPathName h List.mem_cons_self⟩

theorem isBlank_of_isPathNameChar {c : Char} (h : isPathNameChar c = true) : isBlank c = false := by
  rw [Bool.eq_false_iff]
  intro hblank
  simp only [isPathNameChar, isAlphanumeric_of_isBlank hblank, Bool.false_or, Bool.or_eq_true,
    beq_iff_eq] at h
  rcases h with (rfl | rfl) | rfl
  all_goals exact absurd hblank (by decide)

/-- A text that starts like a name is a name, with or without a prefix. -/
theorem readNameTest?_cons {c : Char} (hc : isPathNameChar c = true) (rest : List Char) :
    readNameTest? (c :: rest) =
      match splitAtFirst? (· == ':') (c :: rest) with
      | some (lead, base) =>
        if isPathName lead then if isPathName base then some (.tagged (.ofList base)) else none
        else none
      | none => if isPathName (c :: rest) then some (.tagged (.ofList (c :: rest))) else none := by
  unfold readNameTest?
  split
  · next heq =>
    cases heq
    cases hc
  · next heq =>
    cases heq
    cases hc
  · rfl

/-- Reading accepts just what is written as a name test. -/
theorem readNameTest?_eq_some_iff {name : List Char} {test : NameTest} :
    readNameTest? name = some test ↔ test.WrittenAs name := by
  constructor
  · intro h
    unfold readNameTest? at h
    simp only at h
    split at h
    · cases h
      exact .any
    · split at h
      · next hsplit =>
        obtain ⟨rfl, huri⟩ := splitAtFirst?_eq_some_iff.1 hsplit
        split at h
        · next hbase =>
          cases h
          exact .inNamespace huri hbase
        · cases h
      · cases h
    · split at h
      · next hsplit =>
        obtain ⟨rfl, -⟩ := splitAtFirst?_eq_some_iff.1 hsplit
        split at h
        · next hlead =>
          split at h
          · next hbase =>
            cases h
            exact .prefixed hlead hbase
          · cases h
        · cases h
      · split at h
        · next hbase =>
          cases h
          exact .tagged hbase
        · cases h
  · intro h
    cases h with
    | any => rfl
    | tagged hbase =>
      obtain ⟨c, rest, rfl, hc⟩ := exists_cons_of_isPathName hbase
      rw [readNameTest?_cons hc, splitAtFirst?_eq_none_iff.2 (notMem_of_isPathName hbase (by decide))]
      simp only [if_pos hbase]
    | @prefixed lead base hlead hbase =>
      obtain ⟨c, rest, rfl, hc⟩ := exists_cons_of_isPathName hlead
      have hsplit := splitAtFirst?_mark (notMem_of_isPathName hlead (c := ':') (by decide)) base
      rw [List.cons_append] at hsplit ⊢
      rw [readNameTest?_cons hc, hsplit]
      simp only [if_pos hlead, if_pos hbase]
    | @inNamespace uri base huri hbase =>
      have hsplit := splitAtFirst?_mark huri base
      unfold readNameTest?
      simp only [hsplit, if_pos hbase]

/-- The text that a fault names has no part in what a name test is taken for. -/
theorem readNameTest_eq_ok_iff {text : String} {name : List Char} {test : NameTest} :
    readNameTest text name = .ok test ↔ test.WrittenAs name := by
  rw [← readNameTest?_eq_some_iff]
  unfold readNameTest
  cases readNameTest? name with
  | none => simp only [reduceCtorEq]
  | some found => simp only [Except.ok.injEq, Option.some.injEq]

namespace NameTest.WrittenAs

variable {test : NameTest} {name : List Char} (h : test.WrittenAs name)

include h

/-- A name test starts with a star, a brace or a character of a name. -/
theorem exists_cons : ∃ c rest, name = c :: rest ∧
    (c = '*' ∨ c = '\x7b' ∨ isPathNameChar c = true) := by
  cases h with
  | any => exact ⟨_, _, rfl, .inl rfl⟩
  | tagged hbase =>
    obtain ⟨c, rest, rfl, hc⟩ := exists_cons_of_isPathName hbase
    exact ⟨c, rest, rfl, .inr (.inr hc)⟩
  | prefixed hlead hbase =>
    obtain ⟨c, rest, rfl, hc⟩ := exists_cons_of_isPathName hlead
    exact ⟨c, _, rfl, .inr (.inr hc)⟩
  | inNamespace huri hbase => exact ⟨_, _, rfl, .inr (.inl rfl)⟩

theorem ne_nil : name ≠ [] := by
  obtain ⟨c, rest, rfl, -⟩ := h.exists_cons
  exact List.cons_ne_nil _ _

theorem head?_ne {c : Char} (hstar : c ≠ '*') (hbrace : c ≠ '\x7b')
    (hchar : isPathNameChar c = false) : name.head? ≠ some c := by
  obtain ⟨d, rest, rfl, hd⟩ := h.exists_cons
  intro hhead
  obtain rfl : d = c := Option.some.inj hhead
  rcases hd with hd | hd | hd
  · exact hstar hd
  · exact hbrace hd
  · rw [hd] at hchar
    cases hchar

theorem head?_ne_at : name.head? ≠ some '@' := h.head?_ne (by decide) (by decide) (by decide)

theorem head?_ne_quote : name.head? ≠ some '"' := h.head?_ne (by decide) (by decide) (by decide)

/-- A name test ends with a star or a character of a name. -/
theorem exists_concat : ∃ rest c, name = rest ++ [c] ∧ (c = '*' ∨ isPathNameChar c = true) := by
  have hname {base : List Char} (hbase : isPathName base = true) :
      ∃ rest c, base = rest ++ [c] ∧ isPathNameChar c = true := by
    have hne : base ≠ [] := fun hnil => by simp [hnil, isPathName] at hbase
    exact ⟨base.dropLast, base.getLast hne, (List.dropLast_concat_getLast hne).symm,
      isPathNameChar_of_isPathName hbase (List.getLast_mem hne)⟩
  cases h with
  | any => exact ⟨[], _, rfl, .inl rfl⟩
  | tagged hbase =>
    obtain ⟨rest, c, rfl, hc⟩ := hname hbase
    exact ⟨rest, c, rfl, .inr hc⟩
  | @prefixed lead _ hlead hbase =>
    obtain ⟨rest, c, rfl, hc⟩ := hname hbase
    exact ⟨lead ++ ':' :: rest, c, by simp, .inr hc⟩
  | @inNamespace uri _ huri hbase =>
    obtain ⟨rest, c, rfl, hc⟩ := hname hbase
    exact ⟨'\x7b' :: (uri ++ '\x7d' :: rest), c, by simp, .inr hc⟩

theorem isTrimmed : IsTrimmed name := by
  constructor
  · obtain ⟨c, rest, rfl, hc⟩ := h.exists_cons
    intro d hd
    obtain rfl : c = d := Option.some.inj hd
    rcases hc with rfl | rfl | hc
    · decide
    · decide
    · exact isBlank_of_isPathNameChar hc
  · obtain ⟨rest, c, rfl, hc⟩ := h.exists_concat
    intro d hd
    obtain rfl : c = d := by simpa using hd
    rcases hc with rfl | hc
    · decide
    · exact isBlank_of_isPathNameChar hc

/-- The characters of a name test without braces are a star, a colon and the characters of names. -/
theorem isPathNameChar_of_mem (hbrace : name.head? ≠ some '\x7b') {c : Char} (hc : c ∈ name) :
    c = '*' ∨ c = ':' ∨ isPathNameChar c = true := by
  cases h with
  | any => exact .inl (List.mem_singleton.1 hc)
  | tagged hbase => exact .inr (.inr (isPathNameChar_of_isPathName hbase hc))
  | prefixed hlead hbase =>
    rcases List.mem_append.1 hc with hc | hc
    · exact .inr (.inr (isPathNameChar_of_isPathName hlead hc))
    · rcases List.mem_cons.1 hc with rfl | hc
      · exact .inr (.inl rfl)
      · exact .inr (.inr (isPathNameChar_of_isPathName hbase hc))
  | inNamespace huri hbase => exact absurd rfl hbrace

end NameTest.WrittenAs

end Docweave
