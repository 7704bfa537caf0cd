import Docweave.Proofs.Gives
import Docweave.Toml.Reader

set_option autoImplicit false

/-! # What the readers of a configuration leave

A carriage return has a place in a configuration only in front of a line feed, so that no reader stops
just behind one (`IsRest`). `getLast?_ne_return_of_parse` says that a text which is read as a
configuration does not end in a carriage return. -/

namespace Docweave.Toml

open Docweave.Text

/-! ## Rests of a text -/

/-- The text is what another one leaves behind a part that does not end in a carriage return. -/
def IsRest (rest s : List Char) : Prop := ∃ taken, taken ++ rest = s ∧ taken.getLast? ≠ some '\r'

section Rests

variable {s t rest : List Char}

theorem getLast?_append_ne {c : Char} (hs : s.getLast? ≠ some c) (ht : t.getLast? ≠ some c) :
    (s ++ t).getLast? ≠ some c := by
  rw [List.getLast?_append]
  cases hlast : t.getLast? with
  | none => exact hs
  | some d =>
    rw [hlast] at ht
    exact ht

theorem IsRest.refl (s : List Char) : IsRest s s := ⟨[], rfl, nofun⟩

theorem IsRest.trans (h : IsRest rest t) (hs : IsRest t s) : IsRest rest s := by
  obtain ⟨late, rfl, hlate⟩ := h
  obtain ⟨early, rfl, hearly⟩ := hs
  exact ⟨early ++ late, List.append_assoc _ _ _, getLast?_append_ne hearly hlate⟩

theorem IsRest.cons {c : Char} (h : c ≠ '\r') (rest : List Char) : IsRest rest (c :: rest) :=
  ⟨[c], rfl, fun hc => h (Option.some.inj hc)⟩

theorem IsRest.of_notMem {taken : List Char} (h : '\r' ∉ taken) (rest : List Char) :
    IsRest rest (taken ++ rest) :=
  ⟨taken, rfl, fun hlast => h (List.mem_of_getLast? hlast)⟩

theorem IsRest.length_le (h : IsRest rest s) : rest.length ≤ s.length := by
  obtain ⟨taken, rfl, -⟩ := h
  rw [List.length_append]
  omega

/-- A text ends as its rest does, if there is one. -/
theorem IsRest.getLast?_ne (h : IsRest rest s) (hrest : rest.getLast? ≠ some '\r') :
    s.getLast? ≠ some '\r' := by
  obtain ⟨taken, rfl, htaken⟩ := h
  exact getLast?_append_ne htaken hrest

variable {p : Char → Bool} (hp : p '\r' = false)

include hp

theorem ne_return_of_pos {c : Char} (hc : p c = true) : c ≠ '\r' := by
  rintro rfl
  exact absurd hc (by rw [hp]; exact Bool.false_ne_true)

theorem return_notMem_takeWhile (s : List Char) : '\r' ∉ s.takeWhile p := fun hc =>
  ne_return_of_pos hp (List.all_eq_true.1 List.all_takeWhile _ hc) rfl

theorem IsRest.drop {count : Nat} (h : count ≤ (s.takeWhile p).length) : IsRest (s.drop count) s := by
  have htake : s.take count <+: s.takeWhile p :=
    List.prefix_of_prefix_length_le (List.take_prefix _ _) (List.takeWhile_prefix _)
      (Nat.le_trans (List.length_take_le _ _) h)
  have htaken : '\r' ∉ s.take count := fun hc => return_notMem_takeWhile hp s (htake.subset hc)
  have hrest := IsRest.of_notMem htaken (s.drop count)
  rwa [List.take_append_drop] at hrest

theorem IsRest.dropWhile (s : List Char) : IsRest (s.dropWhile p) s := by
  have hrest := IsRest.of_notMem (return_notMem_takeWhile hp s) (s.dropWhile p)
  rwa [List.takeWhile_append_dropWhile] at hrest

end Rests

theorem isRest_of_lineEnd? {s rest : List Char} (h : lineEnd? s = some rest) : IsRest rest s := by
  unfold lineEnd? at h
  split at h
  · cases h
    exact .cons (by decide) rest
  · cases h
    exact ⟨['\r', '\n'], rfl, by decide⟩
  · cases h

theorem isRest_of_stripStart? {start s rest : List Char} (hstart : '\r' ∉ start)
    (h : stripStart? start s = some rest) : IsRest rest s :=
  eq_append_of_stripStart? h ▸ .of_notMem hstart rest

theorem isRest_skipWs (s : List Char) : IsRest (skipWs s) s := .dropWhile (by decide) s

theorem isRest_skipComment (s : List Char) : IsRest (skipComment s) s := by
  unfold skipComment
  split
  · exact (IsRest.dropWhile (by decide) _).trans (.cons (by decide) _)
  · exact .refl s

theorem isRest_skipGaps (s : List Char) : IsRest (skipGaps s) s := by
  have hcomment (s : List Char) : IsRest (skipComment (skipWs s)) s :=
    (isRest_skipComment _).trans (isRest_skipWs s)
  fun_induction skipGaps s with
  | case1 s rest hend ih => exact ih.trans ((isRest_of_lineEnd? hend).trans (hcomment s))
  | case2 s hend => exact hcomment s

/-! ## Texts -/

/-- Where a reader gives something, what it leaves is a rest of its text. -/
def Leaves {α : Type} (s : List Char) (result : Except Problem (α × List Char)) : Prop :=
  Gives result fun got => IsRest got.2 s

section Leaves

variable {α β : Type} {s t : List Char}

theorem leaves_ok {a : α} {rest : List Char} (h : IsRest rest s) : Leaves s (.ok (a, rest)) :=
  gives_ok h

theorem leaves_stopAt (s t : List Char) : Leaves s (stopAt t : Except Problem (α × List Char)) :=
  gives_error _

theorem Leaves.trans {result : Except Problem (α × List Char)} (h : Leaves t result)
    (ht : IsRest t s) : Leaves s result :=
  fun got hgot => (h got hgot).trans ht

theorem Leaves.map {result : Except Problem (α × List Char)} (h : Leaves s result) {f : α → β} :
    Leaves s (result.map fun got => (f got.1, got.2)) :=
  gives_map h fun _ hgot => hgot

theorem Leaves.bind {result : Except Problem (α × List Char)} (h : Leaves s result)
    {f : α × List Char → Except Problem (β × List Char)}
    (hf : ∀ a rest, IsRest rest s → Leaves s (f (a, rest))) : Leaves s (result >>= f) :=
  gives_bind h fun got hgot => hf got.1 got.2 hgot

end Leaves

theorem isRest_skipLineBlanks (s : List Char) : IsRest (skipLineBlanks s) s := by
  fun_induction skipLineBlanks s with
  | case1 rest ih => exact ih.trans ⟨['\r', '\n'], rfl, by decide⟩
  | case2 c rest hnot hc ih =>
    refine ih.trans (.cons ?_ rest)
    rintro rfl
    exact absurd hc (by decide)
  | case3 c rest hnot hc => exact .refl _
  | case4 => exact .refl _

theorem isRest_of_joinedLine? {s rest : List Char} (h : joinedLine? s = some rest) :
    IsRest rest s := by
  obtain ⟨line, hline, rfl⟩ := Option.map_eq_some_iff.1 h
  exact (isRest_skipLineBlanks line).trans
    ((isRest_of_lineEnd? hline).trans (.dropWhile (by decide) s))

theorem return_notMem_of_hexValue? {digits : List Char} {n : Nat} (h : hexValue? digits = some n) :
    '\r' ∉ digits := by
  unfold hexValue? at h
  generalize 0 = start at h
  induction digits generalizing start with
  | nil => exact nofun
  | cons d digits ih =>
    rw [List.foldlM_cons] at h
    obtain ⟨next, hnext, hrest⟩ := Option.bind_eq_some_iff.1 h
    refine List.not_mem_cons_of_ne_of_not_mem ?_ (ih next hrest)
    rintro rfl
    exact absurd hnext nofun

theorem leaves_readNumbered (count : Nat) (s : List Char) : Leaves s (readNumbered count s) := by
  unfold readNumbered
  split
  · next n hn =>
    split
    · refine leaves_ok ?_
      have hrest := IsRest.of_notMem (return_notMem_of_hexValue? hn) (s.drop count)
      rwa [List.take_append_drop] at hrest
    · exact leaves_stopAt s s
  · exact leaves_stopAt s s

theorem leaves_readEscape (s : List Char) : Leaves s (readEscape s) := by
  unfold readEscape
  split
  case h_8 rest => exact (leaves_readNumbered 4 rest).trans (.cons (by decide) rest)
  case h_9 rest => exact (leaves_readNumbered 8 rest).trans (.cons (by decide) rest)
  case h_10 => exact leaves_stopAt _ _
  all_goals exact leaves_ok (.cons (by decide) _)

/-- A text in one sort of quotation marks, on one line or on several. -/
theorem leaves_readTextRest {kind : TextKind} (hkind : kind.quote ≠ '\r') (fuel : Nat)
    (s : List Char) : Leaves s (readTextRest kind fuel s) := by
  induction fuel generalizing s with
  | zero => exact leaves_stopAt s s
  | succ fuel ih =>
    have goOn (taken : List Char) {rest : List Char} (hrest : IsRest rest s) :
        Leaves s ((readTextRest kind fuel rest).map fun got => (taken ++ got.1, got.2)) :=
      ((ih rest).trans hrest).map
    have hmarks : (· == kind.quote) '\r' = false := beq_false_of_ne hkind.symm
    unfold readTextRest
    dsimp only
    split
    · exact leaves_stopAt _ _
    · next c rest =>
      split
      · next hc =>
        have hquote : IsRest rest (c :: rest) := .cons (hc ▸ hkind) rest
        split
        · split
          · exact goOn _ (.drop hmarks (Nat.le_refl _))
          · exact leaves_ok (.drop hmarks (Nat.min_le_left _ _))
        · exact leaves_ok hquote
      · split
        · next hescape =>
          have hslash : IsRest rest (c :: rest) :=
            .cons (by rintro rfl; exact absurd hescape (by simp)) rest
          split
          · next rest' hjoined =>
            refine goOn [] (IsRest.trans ?_ hslash)
            split at hjoined
            · exact isRest_of_joinedLine? hjoined
            · cases hjoined
          · split
            · next d rest' hread =>
              exact goOn [d] ((leaves_readEscape rest _ hread).trans hslash)
            · exact gives_error _
        · split
          · next hplain => exact goOn [c] (.cons (ne_return_of_pos (by decide) hplain) rest)
          · split
            · next rest' hend =>
              refine goOn ['\n'] ?_
              split at hend
              · exact isRest_of_lineEnd? hend
              · cases hend
            · exact leaves_stopAt _ _

theorem leaves_readText (s : List Char) : Leaves s (readText s) := by
  unfold readText
  split
  · exact leaves_stopAt _ _
  · next q rest =>
    split
    · next hq =>
      have hne : q ≠ '\r' := by
        rw [Bool.or_eq_true, decide_eq_true_iff, decide_eq_true_iff] at hq
        rcases hq with rfl | rfl <;> decide
      have hquote : IsRest rest (q :: rest) := .cons hne rest
      split
      · next long hlong =>
        have hmarks : IsRest long rest := isRest_of_stripStart? (by simpa using hne.symm) hlong
        have hbody : IsRest ((lineEnd? long).getD long) long := by
          cases hend : lineEnd? long with
          | none => exact .refl long
          | some body => exact isRest_of_lineEnd? hend
        exact ((leaves_readTextRest hne _ _).trans (hbody.trans (hmarks.trans hquote))).map
      · exact ((leaves_readTextRest hne _ _).trans hquote).map
    · exact leaves_stopAt _ _

/-! ## Keys and values -/

theorem leaves_readKeyPart (s : List Char) : Leaves s (readKeyPart s) := by
  unfold readKeyPart
  split
  · exact leaves_stopAt _ _
  · next c rest =>
    split
    · next hc =>
      have hne : c ≠ '\r' := by
        rw [Bool.or_eq_true, decide_eq_true_iff, decide_eq_true_iff] at hc
        rcases hc with rfl | rfl <;> decide
      have hkind : (⟨c, false⟩ : TextKind).quote ≠ '\r' := hne
      exact ((leaves_readTextRest hkind _ _).trans (.cons hne rest)).map
    · split
      · exact leaves_ok (.dropWhile (by decide) _)
      · exact leaves_stopAt _ _

theorem leaves_readKeyParts (parts : Nat) (s : List Char) : Leaves s (readKeyParts parts s) := by
  induction parts generalizing s with
  | zero => exact gives_error _
  | succ parts ih =>
    rw [readKeyParts]
    refine ((leaves_readKeyPart _).trans (isRest_skipWs s)).bind fun part rest hrest => ?_
    have hws : IsRest (skipWs rest) s := (isRest_skipWs rest).trans hrest
    dsimp only
    split
    · next more hmore =>
      refine ((ih more).trans ((IsRest.cons (by decide) more).trans (hmore ▸ hws))).bind ?_
      exact fun _ _ hlast => leaves_ok hlast
    · exact leaves_ok hws

theorem leaves_readKey (s : List Char) : Leaves s (readKey s) := leaves_readKeyParts maxDepth s

section Values

variable {readItem : List Char → Except Problem (Value × List Char)}
  (hitem : ∀ s, Leaves s (readItem s))

include hitem

theorem leaves_readItems (fuel : Nat) (s : List Char) : Leaves s (readItems readItem fuel s) := by
  induction fuel generalizing s with
  | zero => exact leaves_stopAt s s
  | succ fuel ih =>
    have hgaps := isRest_skipGaps s
    rw [readItems]
    split
    · next rest hrest => exact leaves_ok ((IsRest.cons (by decide) rest).trans (hrest ▸ hgaps))
    · refine ((hitem _).trans hgaps).bind fun item rest hrest => ?_
      have hafter : IsRest (skipGaps rest) s := (isRest_skipGaps rest).trans hrest
      dsimp only
      split
      · next more hmore =>
        refine ((ih more).trans ((IsRest.cons (by decide) more).trans (hmore ▸ hafter))).bind ?_
        exact fun _ _ hlast => leaves_ok hlast
      · next more hmore => exact leaves_ok ((IsRest.cons (by decide) more).trans (hmore ▸ hafter))
      · exact leaves_stopAt _ _

theorem leaves_readPair (entries : Entries) (s : List Char) :
    Leaves s (readPair readItem entries s) := by
  unfold readPair
  refine (leaves_readKey s).bind fun key rest hrest => ?_
  obtain ⟨key, more⟩ := key
  dsimp only
  split
  · next after =>
    have hafter : IsRest (skipWs after) s :=
      (isRest_skipWs after).trans ((IsRest.cons (by decide) after).trans hrest)
    refine ((hitem _).trans hafter).bind fun value rest hvalue => ?_
    exact gives_bind (gives_true _) fun entries _ => leaves_ok hvalue
  · exact leaves_stopAt _ _

theorem leaves_readInline (fuel : Nat) (entries : Entries) (s : List Char) :
    Leaves s (readInline readItem fuel entries s) := by
  induction fuel generalizing entries s with
  | zero => exact leaves_stopAt s s
  | succ fuel ih =>
    rw [readInline]
    refine (leaves_readPair hitem entries s).bind fun entries rest hrest => ?_
    have hws : IsRest (skipWs rest) s := (isRest_skipWs rest).trans hrest
    dsimp only
    split
    · next more hmore =>
      exact (ih entries more).trans ((IsRest.cons (by decide) more).trans (hmore ▸ hws))
    · next more hmore => exact leaves_ok ((IsRest.cons (by decide) more).trans (hmore ▸ hws))
    · exact leaves_stopAt _ _

end Values

theorem isRest_splitWord (s : List Char) : IsRest (splitWord s).2 s := by
  have hword : IsRest (s.dropWhile isWordChar) s := .dropWhile (by decide) s
  unfold splitWord
  dsimp only
  split
  · next d more hrest =>
    split
    · exact (IsRest.dropWhile (by decide) _).trans
        ((IsRest.cons (by decide) _).trans (hrest ▸ hword))
    · exact hword
  · exact hword

theorem leaves_readWord (s : List Char) : Leaves s (readWord s) := by
  have hword := isRest_splitWord s
  unfold readWord
  dsimp only
  repeat' split
  all_goals first | exact leaves_ok hword | exact leaves_stopAt _ _

theorem leaves_readValue (levels : Nat) (s : List Char) : Leaves s (readValue levels s) := by
  induction levels generalizing s with
  | zero =>
    unfold readValue
    split
    case h_1 | h_2 => exact (leaves_readText _).map
    case h_3 | h_5 => exact gives_error _
    case h_4 | h_6 => contradiction
    case h_7 => exact leaves_readWord _
  | succ levels ih =>
    unfold readValue
    split
    case h_1 | h_2 => exact (leaves_readText _).map
    case h_3 | h_5 => exact gives_error _
    case h_4 rest levels' hlevels =>
      obtain rfl := Nat.succ.inj hlevels
      exact ((leaves_readItems ih _ rest).trans (.cons (by decide) rest)).map
    case h_6 rest levels' hlevels =>
      obtain rfl := Nat.succ.inj hlevels
      have hws : IsRest (skipWs rest) ('\x7b' :: rest) :=
        (isRest_skipWs rest).trans (.cons (by decide) rest)
      split
      · next after hafter =>
        exact leaves_ok ((IsRest.cons (by decide) after).trans (hafter ▸ hws))
      · exact ((leaves_readInline ih _ [] _).trans hws).map
    case h_7 => exact leaves_readWord _

/-! ## Lines -/

theorem leaves_readHeader (draft : Draft) (s : List Char) : Leaves s (readHeader draft s) := by
  unfold readHeader
  dsimp only
  have hopen : IsRest (if s.head? == some '[' then s.drop 1 else s) s := by
    split
    · next hhead =>
      obtain ⟨rest, rfl⟩ := List.head?_eq_some_iff.1 (eq_of_beq hhead)
      exact .cons (by decide) rest
    · exact .refl s
  refine ((leaves_readKey _).trans hopen).bind fun key rest hrest => ?_
  dsimp only
  split
  · next after hclose =>
    have hafter : IsRest after rest := by
      refine isRest_of_stripStart? ?_ hclose
      split <;> decide
    exact gives_bind (gives_true _) fun root _ => leaves_ok (hafter.trans hrest)
  · exact leaves_stopAt _ _

theorem leaves_readSetting (draft : Draft) (s : List Char) : Leaves s (readSetting draft s) := by
  unfold readSetting
  refine (leaves_readKey s).bind fun key rest hrest => ?_
  dsimp only
  split
  · next after =>
    have hafter : IsRest (skipWs after) s :=
      (isRest_skipWs after).trans ((IsRest.cons (by decide) after).trans hrest)
    refine ((leaves_readValue _ _).trans hafter).bind fun value rest hvalue => ?_
    exact gives_bind (gives_true _) fun root _ => leaves_ok hvalue
  · exact leaves_stopAt _ _

/-- A line without its comment and its end. -/
def readLine (draft : Draft) (s : List Char) : Except Problem (Draft × List Char) :=
  match skipWs s with
  | '[' :: rest => readHeader draft rest
  | [] => .ok (draft, [])
  | c :: rest =>
    if c = '#' || c = '\n' || c = '\r' then .ok (draft, c :: rest)
    else readSetting draft (c :: rest)

theorem leaves_readLine (draft : Draft) (s : List Char) : Leaves s (readLine draft s) := by
  have hws := isRest_skipWs s
  unfold readLine
  split
  · next rest hrest =>
    exact (leaves_readHeader draft rest).trans ((IsRest.cons (by decide) rest).trans (hrest ▸ hws))
  · next hrest => exact leaves_ok (hrest ▸ hws)
  · next c rest _ hrest =>
    split
    · exact leaves_ok (hrest ▸ hws)
    · exact (leaves_readSetting draft _).trans (hrest ▸ hws)

theorem readLines_succ (fuel : Nat) (draft : Draft) (s : List Char) :
    readLines (fuel + 1) draft s = (readLine draft s >>= fun got =>
      match skipComment (skipWs got.2), lineEnd? (skipComment (skipWs got.2)) with
      | [], _ => return got.1.root
      | _, some rest => readLines fuel got.1 rest
      | rest, none => stopAt rest) := by
  rw [readLines, readLine]
  cases skipWs s with
  | nil => rfl
  | cons c rest =>
    by_cases hc : c = '['
    · subst hc
      rfl
    · simp only
      split <;> rfl

/-- The lines that are read go on to the end of the text. -/
theorem getLast?_ne_of_readLines {fuel : Nat} {draft : Draft} {s : List Char} {entries : Entries}
    (hfuel : s.length < fuel) (h : readLines fuel draft s = .ok entries) :
    s.getLast? ≠ some '\r' := by
  induction fuel generalizing draft s with
  | zero => exact absurd hfuel (Nat.not_lt_zero _)
  | succ fuel ih =>
    rw [readLines_succ] at h
    obtain ⟨⟨next, rest⟩, hline, h⟩ := bind_eq_ok_iff.1 h
    have hrest : IsRest (skipComment (skipWs rest)) s :=
      (isRest_skipComment _).trans ((isRest_skipWs rest).trans (leaves_readLine draft s _ hline))
    dsimp only at h
    split at h
    · next hend => exact (hend ▸ hrest).getLast?_ne nofun
    · next more hmore _ =>
      have hmoreRest : IsRest more s := (isRest_of_lineEnd? hmore).trans hrest
      have hshort : more.length < s.length :=
        Nat.lt_of_lt_of_le (length_of_lineEnd? hmore) hrest.length_le
      exact hmoreRest.getLast?_ne (ih (by omega) h)
    · cases h

/-- A carriage return at the end of a text makes it no configuration. -/
theorem getLast?_ne_return_of_parse {s : List Char} {entries : Entries}
    (h : parse s = .ok entries) : s.getLast? ≠ some '\r' := by
  unfold parse at h
  have hmark : IsRest ((stripStart? ['\uFEFF'] s).getD s) s := by
    cases hstrip : stripStart? ['\uFEFF'] s with
    | none => exact .refl s
    | some rest => exact isRest_of_stripStart? (by decide) hstrip
  exact hmark.getLast?_ne (getLast?_ne_of_readLines (Nat.lt_succ_self _) h)

end Docweave.Toml
