set_option autoImplicit false

/-! # Blanks

The characters with the `White_Space` property, and the removal of blanks at the ends of a text. -/

namespace Docweave.Text

/-- White space of any script: the ASCII blanks, the next-line control, and the spaces and separators
of the general punctuation and CJK blocks. The zero-width space and the byte order mark are not
blanks. -/
def isBlank (c : Char) : Bool :=
  let n := c.toNat
  (0x09 ≤ n && n ≤ 0x0D) || n == 0x20 || n == 0x85 || n == 0xA0 || n == 0x1680 ||
    (0x2000 ≤ n && n ≤ 0x200A) || n == 0x2028 || n == 0x2029 || n == 0x202F || n == 0x205F ||
    n == 0x3000

/-- The text without the characters of class `p` at its end. -/
def dropEndWhile (p : Char → Bool) (s : List Char) : List Char :=
  (s.reverse.dropWhile p).reverse

/-- The text without the blanks at its start. -/
def trimStart (s : List Char) : List Char := s.dropWhile isBlank

/-- The text without the blanks at its end. -/
def trimEnd (s : List Char) : List Char := dropEndWhile isBlank s

/-- The text without the blanks at its two ends. -/
def trim (s : List Char) : List Char := trimEnd (trimStart s)

/-- Only characters of the class are taken away. -/
theorem dropEndWhile_append_reverse_takeWhile (p : Char → Bool) (s : List Char) :
    dropEndWhile p s ++ (s.reverse.takeWhile p).reverse = s := by
  rw [dropEndWhile, ← List.reverse_append, List.takeWhile_append_dropWhile, List.reverse_reverse]

/-- What is left does not end with a character of the class. -/
theorem eq_false_of_mem_getLast?_dropEndWhile {p : Char → Bool} {s : List Char} {c : Char}
    (h : c ∈ (dropEndWhile p s).getLast?) : p c = false := by
  rw [dropEndWhile, List.getLast?_reverse] at h
  have hhead := List.head?_dropWhile_not p s.reverse
  rwa [Option.mem_def.1 h] at hhead

theorem dropEndWhile_eq_self {p : Char → Bool} {s : List Char} (h : ∀ c ∈ s.getLast?, p c = false) :
    dropEndWhile p s = s := by
  unfold dropEndWhile
  cases hs : s.reverse with
  | nil => rw [List.reverse_eq_nil_iff.1 hs]; rfl
  | cons c rest =>
    have hlast : s.getLast? = some c := by rw [← List.head?_reverse, hs]; rfl
    rw [List.dropWhile_cons_of_neg (by simp [h c hlast]), ← hs, List.reverse_reverse]

theorem trimStart_eq_self {s : List Char} (h : ∀ c ∈ s.head?, isBlank c = false) : trimStart s = s := by
  unfold trimStart
  cases s with
  | nil => rfl
  | cons c rest => exact List.dropWhile_cons_of_neg (by simp [h c rfl])

/-- A text that neither starts nor ends with a blank stays as it is. -/
theorem trim_eq_self {s : List Char} (hhead : ∀ c ∈ s.head?, isBlank c = false)
    (hlast : ∀ c ∈ s.getLast?, isBlank c = false) : trim s = s := by
  unfold trim
  rw [trimStart_eq_self hhead]
  exact dropEndWhile_eq_self hlast

end Docweave.Text
