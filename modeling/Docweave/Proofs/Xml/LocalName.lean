import Docweave.Xml.Scan

set_option autoImplicit false

/-! # Local names

What the reader takes for a qualified name is made of local names, in which there is no colon. A local
name that something else follows is read as a name without a prefix. -/

namespace Docweave.Text

theorem splitOn_of_notMem {mark : Char} {s : List Char} (h : mark ∉ s) : splitOn mark s = [s] := by
  induction s with
  | nil => rfl
  | cons c rest ih =>
    rw [List.mem_cons, not_or] at h
    rw [splitOn, if_neg (Ne.symm h.1), ih h.2]

/-- The pieces of a text are made of its characters, and none holds the mark. -/
theorem mem_of_mem_splitOn {mark c : Char} {s piece : List Char} (hpiece : piece ∈ splitOn mark s)
    (hc : c ∈ piece) : c ≠ mark ∧ c ∈ s := by
  induction s generalizing piece with
  | nil =>
    rw [splitOn, List.mem_singleton] at hpiece
    subst hpiece
    exact absurd hc List.not_mem_nil
  | cons d rest ih =>
    rw [splitOn] at hpiece
    split at hpiece
    · rcases List.mem_cons.1 hpiece with rfl | hlater
      · exact absurd hc List.not_mem_nil
      · exact (ih hlater hc).imp_right (List.mem_cons_of_mem d)
    · next hd =>
      split at hpiece
      · next first others hsplit =>
        rcases List.mem_cons.1 hpiece with rfl | hlater
        · rcases List.mem_cons.1 hc with rfl | hfirst
          · exact ⟨hd, List.mem_cons_self⟩
          · exact (ih (hsplit ▸ List.mem_cons_self) hfirst).imp_right (List.mem_cons_of_mem d)
        · exact (ih (hsplit ▸ List.mem_cons_of_mem _ hlater) hc).imp_right (List.mem_cons_of_mem d)
      · rw [List.mem_singleton] at hpiece
        subst hpiece
        rw [List.mem_singleton] at hc
        subst hc
        exact ⟨hd, List.mem_cons_self⟩

/-- The pieces with the mark between them are the text. -/
theorem intercalate_splitOn (mark : Char) (s : List Char) :
    [mark].intercalate (splitOn mark s) = s := by
  have hne (s : List Char) : splitOn mark s ≠ [] := by
    cases s with
    | nil => exact List.cons_ne_nil _ _
    | cons c rest =>
      rw [splitOn]
      split
      · exact List.cons_ne_nil _ _
      · split
        all_goals exact List.cons_ne_nil _ _
  induction s with
  | nil => rfl
  | cons c rest ih =>
    obtain ⟨first, others, hsplit⟩ := List.exists_cons_of_ne_nil (hne rest)
    rw [hsplit] at ih
    rw [splitOn, hsplit]
    split
    · next hc => rw [List.intercalate_cons_cons, ih, hc]; rfl
    · cases others with
      | nil =>
        rw [List.intercalate_singleton] at ih ⊢
        rw [ih]
      | cons next others =>
        rw [List.intercalate_cons_cons] at ih ⊢
        rw [← ih]
        rfl

end Docweave.Text

namespace Docweave.Xml

open Docweave.Text

/-- The text is a name without a colon. -/
structure IsLocalName (s : List Char) : Prop where
  starts : startsName s = true
  isNameChar : ∀ c ∈ s, isNameChar c = true
  noColon : ':' ∉ s

instance : DecidablePred IsLocalName := fun s =>
  decidable_of_iff (startsName s = true ∧ s.all isNameChar = true ∧ ':' ∉ s)
    ⟨fun h => ⟨h.1, List.all_eq_true.1 h.2.1, h.2.2⟩,
    fun h => ⟨h.starts, List.all_eq_true.2 h.isNameChar, h.noColon⟩⟩

/-- The text does not go on with a character of a name. -/
def EndsName (rest : List Char) : Prop := ∀ c ∈ rest.head?, isNameChar c = false

theorem endsName_cons {c : Char} (hc : isNameChar c = false) (rest : List Char) :
    EndsName (c :: rest) := by
  intro d hd
  cases hd
  exact hc

theorem ne_of_isNameStart {c d : Char} (hc : isNameStart c = true) (hd : isNameStart d = false) :
    c ≠ d := by
  rintro rfl
  rw [hc] at hd
  cases hd

theorem IsLocalName.exists_cons {s : List Char} (h : IsLocalName s) :
    ∃ c rest, s = c :: rest ∧ isNameStart c = true := by
  cases s with
  | nil => exact absurd h.starts (by decide)
  | cons c rest => exact ⟨c, rest, rfl, h.starts⟩

theorem takeWhile_append_of_endsName {name rest : List Char}
    (hname : ∀ c ∈ name, isNameChar c = true) (hrest : EndsName rest) :
    (name ++ rest).takeWhile isNameChar = name ∧ (name ++ rest).dropWhile isNameChar = rest := by
  rw [List.takeWhile_append_of_pos hname, List.dropWhile_append_of_pos hname]
  cases rest with
  | nil => simp
  | cons c rest =>
    have hc : isNameChar c = false := hrest c rfl
    simp [hc]

/-- A local name is read up to its end, as a name without a prefix. -/
theorem readQName_append {name rest : List Char} (hname : IsLocalName name) (hrest : EndsName rest) :
    readQName (name ++ rest) = .ok (⟨"", .ofList name⟩, rest) := by
  obtain ⟨htake, hdrop⟩ := takeWhile_append_of_endsName hname.isNameChar hrest
  rw [readQName, htake, hdrop, splitOn_of_notMem hname.noColon]
  exact if_pos hname.starts

theorem isLocalName_of_mem_splitOn {s piece : List Char}
    (hpiece : piece ∈ splitOn ':' (s.takeWhile isNameChar)) (hstarts : startsName piece = true) :
    IsLocalName piece where
  starts := hstarts
  isNameChar c hc := List.all_eq_true.1 List.all_takeWhile c (mem_of_mem_splitOn hpiece hc).2
  noColon h := (mem_of_mem_splitOn hpiece h).1 rfl

/-- The name that a text starts with, as it stands there. -/
def nameAt (s : List Char) : List Char := s.takeWhile isNameChar

/-- A qualified name is a local name, or a local name behind a prefix and a colon; the prefix may be
empty. -/
theorem nameAt_of_readQName {s rest : List Char} {name : WrittenName}
    (h : readQName s = .ok (name, rest)) :
    (IsLocalName (nameAt s) ∧ name = ⟨"", .ofList (nameAt s)⟩) ∨
      ∃ lead base, nameAt s = lead ++ ':' :: base ∧ (lead = [] ∨ IsLocalName lead) ∧
        IsLocalName base ∧ name = ⟨.ofList lead, .ofList base⟩ := by
  have hjoin := intercalate_splitOn ':' (nameAt s)
  have hpiece {piece : List Char} (hmem : piece ∈ splitOn ':' (nameAt s))
      (hstarts : startsName piece = true) := isLocalName_of_mem_splitOn hmem hstarts
  unfold readQName at h
  simp only at h
  split at h
  · next base hsplit =>
    rw [nameAt, hsplit] at hjoin hpiece
    rw [List.intercalate_singleton] at hjoin
    split at h
    · next hstarts =>
      cases h
      rw [nameAt, ← hjoin]
      exact .inl ⟨hpiece List.mem_cons_self hstarts, rfl⟩
    · cases h
  · next lead base hsplit =>
    rw [nameAt, hsplit] at hjoin hpiece
    rw [List.intercalate_cons_cons, List.intercalate_singleton] at hjoin
    split at h
    · next hstarts =>
      cases h
      rw [Bool.and_eq_true, Bool.or_eq_true, List.isEmpty_iff] at hstarts
      refine .inr ⟨lead, base, ?_, ?_, ?_, rfl⟩
      · rw [nameAt, ← hjoin]
        simp
      · exact hstarts.1.imp_right (hpiece List.mem_cons_self)
      · exact hpiece (List.mem_cons_of_mem _ List.mem_cons_self) hstarts.2
    · cases h
  · cases h

theorem isLocalName_of_readQName {s rest : List Char} {name : WrittenName}
    (h : readQName s = .ok (name, rest)) : IsLocalName name.base.toList := by
  rcases nameAt_of_readQName h with ⟨hbase, rfl⟩ | ⟨lead, base, -, -, hbase, rfl⟩
  all_goals
    rw [String.toList_ofList]
    exact hbase

/-- What is read as a name starts like one, or with a colon. -/
theorem exists_cons_of_readQName {s rest : List Char} {name : WrittenName}
    (h : readQName s = .ok (name, rest)) : ∃ c more, s = c :: more ∧ isNameStart c = true := by
  obtain ⟨c, more, hname, hc⟩ : ∃ c more, nameAt s = c :: more ∧ isNameStart c = true := by
    rcases nameAt_of_readQName h with ⟨hbase, -⟩ | ⟨lead, base, hname, hlead, -, -⟩
    · exact hbase.exists_cons
    · rw [hname]
      rcases hlead with rfl | hlead
      · exact ⟨':', base, rfl, by decide⟩
      · obtain ⟨c, more, rfl, hc⟩ := hlead.exists_cons
        exact ⟨c, _, rfl, hc⟩
  have hparts : nameAt s ++ s.dropWhile isNameChar = s := List.takeWhile_append_dropWhile
  rw [hname, List.cons_append] at hparts
  exact ⟨c, _, hparts.symm, hc⟩

end Docweave.Xml
