import Docweave.Text.Blank
import Mathlib.Data.List.Basic
import Mathlib.Data.List.TakeWhile

set_option autoImplicit false

/-! # Parts of a text with blanks around them

A text that is made of parts may have blanks in front of each part and at its end (`Spaced`). What
trimming leaves of a text is the one part of it that has no blanks at its own ends. -/

namespace Docweave.Text

/-- There are only blanks in the text. -/
def AllBlank (s : List Char) : Prop := ∀ c ∈ s, isBlank c = true

/-- No blank stands in the text. -/
def IsUnbroken (s : List Char) : Prop := ∀ c ∈ s, isBlank c = false

instance : DecidablePred IsUnbroken := fun s =>
  decidable_of_iff (s.all (!isBlank ·) = true) (by simp [IsUnbroken])

/-- No blank stands at the ends of the text. -/
structure IsTrimmed (s : List Char) : Prop where
  head : ∀ c ∈ s.head?, isBlank c = false
  last : ∀ c ∈ s.getLast?, isBlank c = false

/-- The text consists of the parts in order, with any blanks in front of each and at the end. -/
def Spaced : List (List Char) → List Char → Prop
  | [], s => AllBlank s
  | part :: parts, s =>
    ∃ blanks rest, s = blanks ++ (part ++ rest) ∧ AllBlank blanks ∧ Spaced parts rest

theorem AllBlank.nil : AllBlank [] := fun _ h => absurd h List.not_mem_nil

theorem AllBlank.notMem {s : List Char} (h : AllBlank s) {c : Char} (hc : isBlank c = false) :
    c ∉ s := by
  intro hmem
  rw [h c hmem] at hc
  cases hc

theorem isTrimmed_singleton {c : Char} (h : isBlank c = false) : IsTrimmed [c] :=
  ⟨fun d hd => by cases hd; exact h, fun d hd => by cases hd; exact h⟩

theorem IsUnbroken.isTrimmed {s : List Char} (h : IsUnbroken s) : IsTrimmed s :=
  ⟨fun c hc => h c (List.mem_of_mem_head? hc), fun c hc => h c (List.mem_of_mem_getLast? hc)⟩

/-- No blanks stand behind the rest of a text without blanks at its end. -/
theorem IsTrimmed.eq_nil_of_allBlank {s t : List Char} (h : IsTrimmed (s ++ t)) (ht : AllBlank t) :
    t = [] := by
  by_contra hne
  have hlast := List.getLast?_eq_some_getLast hne
  have hblank := h.last (t.getLast hne) (by rw [List.getLast?_append_of_ne_nil _ hne, hlast]; rfl)
  rw [ht _ (List.getLast_mem hne)] at hblank
  cases hblank

theorem AllBlank.append {s t : List Char} (hs : AllBlank s) (ht : AllBlank t) : AllBlank (s ++ t) :=
  fun c hc => (List.mem_append.1 hc).elim (hs c) (ht c)

theorem AllBlank.reverse {s : List Char} (h : AllBlank s) : AllBlank s.reverse :=
  fun c hc => h c (List.mem_reverse.1 hc)

/-! ## The end of a text -/

section DropEnd

variable {p : Char → Bool}

/-- A text is what stays of it, with what is dropped behind it. -/
theorem dropEndWhile_append_takeWhile (p : Char → Bool) (s : List Char) :
    dropEndWhile p s ++ (s.reverse.takeWhile p).reverse = s := by
  unfold dropEndWhile
  rw [← List.reverse_append, List.takeWhile_append_dropWhile, List.reverse_reverse]

theorem dropEndWhile_append_of_pos {t : List Char} (h : ∀ c ∈ t, p c = true) (s : List Char) :
    dropEndWhile p (s ++ t) = dropEndWhile p s := by
  unfold dropEndWhile
  rw [List.reverse_append, List.dropWhile_append_of_pos fun c hc => h c (List.mem_reverse.1 hc)]

theorem dropEndWhile_append_of_ne_nil {t : List Char} (h : dropEndWhile p t ≠ []) (s : List Char) :
    dropEndWhile p (s ++ t) = s ++ dropEndWhile p t := by
  unfold dropEndWhile at h ⊢
  rw [Ne, List.reverse_eq_nil_iff] at h
  rw [List.reverse_append, List.dropWhile_append, if_neg (by rwa [List.isEmpty_iff]),
    List.reverse_append, List.reverse_reverse]

theorem dropEndWhile_singleton {c : Char} (h : p c = false) : dropEndWhile p [c] = [c] :=
  dropEndWhile_eq_self fun d hd => by
    obtain rfl : c = d := Option.some.inj hd
    exact h

/-- Nothing in front of a character that stays is dropped. -/
theorem dropEndWhile_append_cons {c : Char} (hc : p c = false) (s t : List Char) :
    dropEndWhile p (s ++ c :: t) = s ++ c :: dropEndWhile p t := by
  have hinner : dropEndWhile p (c :: t) = c :: dropEndWhile p t := by
    by_cases h : dropEndWhile p t = []
    · have hall : ∀ d ∈ t, p d = true := by
        unfold dropEndWhile at h
        rw [List.reverse_eq_nil_iff, List.dropWhile_eq_nil_iff] at h
        exact fun d hd => h d (List.mem_reverse.2 hd)
      rw [h, ← List.singleton_append, dropEndWhile_append_of_pos hall, dropEndWhile_singleton hc]
    · rw [← List.singleton_append, dropEndWhile_append_of_ne_nil h]
      rfl
  have hne : dropEndWhile p (c :: t) ≠ [] := hinner ▸ List.cons_ne_nil _ _
  rw [dropEndWhile_append_of_ne_nil hne, hinner]

end DropEnd

/-! ## Trimming -/

/-- A text is what trimming leaves of it, with blanks around it. -/
theorem exists_blanks_trim (s : List Char) :
    ∃ before after, s = before ++ (trim s ++ after) ∧ AllBlank before ∧ AllBlank after := by
  refine ⟨s.takeWhile isBlank, ((trimStart s).reverse.takeWhile isBlank).reverse, ?_,
    fun c hc => List.mem_takeWhile_imp hc, fun c hc => List.mem_takeWhile_imp (List.mem_reverse.1 hc)⟩
  have hend : trim s ++ ((trimStart s).reverse.takeWhile isBlank).reverse = trimStart s :=
    dropEndWhile_append_takeWhile isBlank (trimStart s)
  rw [hend]
  exact List.takeWhile_append_dropWhile.symm

theorem head?_dropWhile {p : Char → Bool} {s : List Char} :
    ∀ c ∈ (s.dropWhile p).head?, p c = false := by
  intro c hc
  simpa [Option.mem_def.1 hc] using List.head?_dropWhile_not p s

theorem isTrimmed_trim (s : List Char) : IsTrimmed (trim s) := by
  constructor
  · -- what is left starts like the text without the blanks in front
    intro c hc
    have hprefix : trim s <+: trimStart s := by
      unfold trim trimEnd dropEndWhile
      rw [← List.reverse_suffix, List.reverse_reverse]
      exact List.dropWhile_suffix _
    obtain ⟨after, hafter⟩ := hprefix
    refine head?_dropWhile (s := s) c (show c ∈ (trimStart s).head? from ?_)
    rw [← hafter, List.head?_append, hc]
    rfl
  · intro c hc
    unfold trim trimEnd dropEndWhile at hc
    rw [List.getLast?_reverse] at hc
    exact head?_dropWhile c hc

theorem IsTrimmed.trim_eq {s : List Char} (h : IsTrimmed s) : trim s = s := trim_eq_self h.head h.last

theorem isTrimmed_iff {s : List Char} : IsTrimmed s ↔ trim s = s :=
  ⟨IsTrimmed.trim_eq, fun h => h ▸ isTrimmed_trim s⟩

theorem AllBlank.trim_eq_nil {s : List Char} (h : AllBlank s) : trim s = [] := by
  have hstart : trimStart s = [] := List.dropWhile_eq_nil_iff.2 h
  unfold trim
  rw [hstart]
  rfl

/-- Trimming takes blanks away from both ends. -/
theorem IsTrimmed.trim_blanks {s : List Char} (h : IsTrimmed s) {before after : List Char}
    (hbefore : AllBlank before) (hafter : AllBlank after) : trim (before ++ (s ++ after)) = s := by
  have hstart : trimStart (before ++ (s ++ after)) = trimStart (s ++ after) :=
    List.dropWhile_append_of_pos hbefore
  cases hs : s with
  | nil =>
    rw [List.nil_append]
    exact (hbefore.append hafter).trim_eq_nil
  | cons c rest =>
    have hhead : trimStart (s ++ after) = s ++ after := by
      refine trimStart_eq_self fun d hd => h.head d ?_
      rw [hs] at hd ⊢
      exact hd
    unfold trim
    rw [← hs, hstart, hhead]
    unfold trimEnd dropEndWhile
    rw [List.reverse_append, List.dropWhile_append_of_pos hafter.reverse]
    exact dropEndWhile_eq_self h.last

/-- Where something is left in the middle, only blanks are dropped at the end. -/
theorem exists_blanks_trimEnd {s : List Char} (h : trim s ≠ []) :
    ∃ before after, trimEnd s = before ++ trim s ∧ s = trimEnd s ++ after ∧ AllBlank before ∧
      AllBlank after := by
  obtain ⟨before, after, hs, hbefore, hafter⟩ := exists_blanks_trim s
  have hend : trimEnd s = before ++ trim s := by
    conv_lhs => rw [hs, ← List.append_assoc]
    unfold trimEnd
    rw [dropEndWhile_append_of_pos hafter]
    refine dropEndWhile_eq_self ?_
    rw [List.getLast?_append_of_ne_nil _ h]
    exact (isTrimmed_trim s).last
  refine ⟨before, after, hend, ?_, hbefore, hafter⟩
  rw [hend, List.append_assoc]
  exact hs

/-- Trimming leaves the same where the blanks at the end are gone already. -/
theorem trim_trimEnd (s : List Char) : trim (trimEnd s) = trim s := by
  by_cases hnil : trim s = []
  · obtain ⟨before, after, hs, hbefore, hafter⟩ := exists_blanks_trim s
    rw [hnil, List.nil_append] at hs
    have hblank : trimEnd s = [] := by
      have happend := dropEndWhile_append_of_pos (hbefore.append hafter) []
      rwa [List.nil_append, ← hs] at happend
    rw [hblank, hnil]
    rfl
  · obtain ⟨before, -, hend, -, hbefore, -⟩ := exists_blanks_trimEnd hnil
    have hblanks := (isTrimmed_trim s).trim_blanks hbefore .nil
    rw [hend]
    rwa [List.append_nil] at hblanks

/-! ## Parts of a text -/

theorem Spaced.blanks_append {parts : List (List Char)} {s : List Char} (h : Spaced parts s)
    {blanks : List Char} (hb : AllBlank blanks) : Spaced parts (blanks ++ s) := by
  cases parts with
  | nil => exact hb.append h
  | cons part parts =>
    obtain ⟨before, rest, rfl, hbefore, hrest⟩ := h
    exact ⟨blanks ++ before, rest, (List.append_assoc ..).symm, hb.append hbefore, hrest⟩

theorem Spaced.append {parts more : List (List Char)} {s t : List Char} (hs : Spaced parts s)
    (ht : Spaced more t) : Spaced (parts ++ more) (s ++ t) := by
  induction parts generalizing s with
  | nil => exact ht.blanks_append hs
  | cons part parts ih =>
    obtain ⟨before, rest, rfl, hbefore, hrest⟩ := hs
    exact ⟨before, rest ++ t, by simp only [List.append_assoc], hbefore, ih hrest⟩

/-- A text with blanks around it has one part. -/
theorem spaced_singleton_trim (s : List Char) : Spaced [trim s] s := by
  obtain ⟨before, after, hs, hbefore, hafter⟩ := exists_blanks_trim s
  exact ⟨before, after, hs, hbefore, hafter⟩

theorem spaced_self (s : List Char) : Spaced [s] s :=
  ⟨[], [], by rw [List.nil_append, List.append_nil], .nil, .nil⟩

theorem mem_of_mem_trim {s : List Char} {c : Char} (h : c ∈ trim s) : c ∈ s := by
  obtain ⟨before, after, hs, -, -⟩ := exists_blanks_trim s
  rw [hs]
  exact List.mem_append_right _ (List.mem_append_left _ h)

/-- The parts of what trimming leaves are the parts of the text. -/
theorem Spaced.of_trim {parts : List (List Char)} {s : List Char} (h : Spaced parts (trim s)) :
    Spaced parts s := by
  obtain ⟨before, after, hs, hbefore, hafter⟩ := exists_blanks_trim s
  have hend : Spaced (parts ++ []) (trim s ++ after) := h.append hafter
  rw [List.append_nil] at hend
  rw [hs]
  exact hend.blanks_append hbefore

/-- The last part stands at the end, with blanks behind it. -/
theorem Spaced.exists_last {parts : List (List Char)} {last s : List Char}
    (h : Spaced (parts ++ [last]) s) :
    ∃ before after, s = before ++ (last ++ after) ∧ Spaced parts before ∧ AllBlank after := by
  induction parts generalizing s with
  | nil =>
    obtain ⟨before, after, hs, hbefore, hafter⟩ := h
    exact ⟨before, after, hs, hbefore, hafter⟩
  | cons part parts ih =>
    obtain ⟨blanks, rest, rfl, hblanks, hrest⟩ := h
    obtain ⟨before, after, rfl, hbefore, hafter⟩ := ih hrest
    exact ⟨blanks ++ (part ++ before), after, by simp only [List.append_assoc],
      ⟨blanks, before, rfl, hblanks, hbefore⟩, hafter⟩

/-- Where the first and the last part have no blanks at their ends, trimming leaves the text from the
one to the other. -/
theorem Spaced.exists_trim (parts : List (List Char)) {first last s : List Char}
    (h : Spaced (first :: (parts ++ [last])) s) (hfirst : IsTrimmed first) (hne : first ≠ [])
    (hlast : IsTrimmed last) (hne' : last ≠ []) :
    ∃ between, trim s = first ++ (between ++ last) ∧ Spaced parts between := by
  obtain ⟨before, rest, rfl, hbefore, hrest⟩ := h
  obtain ⟨between, after, rfl, hbetween, hafter⟩ := hrest.exists_last
  have hends : IsTrimmed (first ++ (between ++ last)) := by
    constructor
    · rw [List.head?_append_of_ne_nil _ hne]
      exact hfirst.head
    · rw [← List.append_assoc, List.getLast?_append_of_ne_nil _ hne']
      exact hlast.last
  refine ⟨between, ?_, hbetween⟩
  rw [← hends.trim_blanks hbefore hafter]
  simp only [List.append_assoc]

/-- One part without blanks at its ends is what trimming leaves. -/
theorem Spaced.trim_eq {part s : List Char} (h : Spaced [part] s) (hpart : IsTrimmed part) :
    trim s = part := by
  obtain ⟨before, after, rfl, hbefore, hafter⟩ := h
  exact hpart.trim_blanks hbefore hafter

/-- A text that does not start with a blank starts with its first part. -/
theorem Spaced.head?_eq {part : List Char} {parts : List (List Char)} {s : List Char}
    (h : Spaced (part :: parts) s) (hs : ∀ c ∈ s.head?, isBlank c = false) (hpart : part ≠ []) :
    part.head? = s.head? := by
  obtain ⟨blanks, rest, rfl, hblanks, -⟩ := h
  cases blanks with
  | nil => rw [List.nil_append, List.head?_append_of_ne_nil _ hpart]
  | cons c blanks => exact absurd List.mem_cons_self (hblanks.notMem (hs c rfl))

theorem Spaced.subset {parts : List (List Char)} {s : List Char} (h : Spaced parts s)
    {part : List Char} (hpart : part ∈ parts) : part ⊆ s := by
  induction parts generalizing s with
  | nil => cases hpart
  | cons first parts ih =>
    obtain ⟨blanks, rest, rfl, -, hrest⟩ := h
    refine List.subset_append_of_subset_right _ ?_
    rcases List.mem_cons.1 hpart with rfl | hpart
    · exact List.subset_append_left ..
    · exact List.subset_append_of_subset_right _ (ih hrest hpart)

end Docweave.Text
