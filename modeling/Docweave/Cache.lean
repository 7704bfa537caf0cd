import Docweave.Digest.Sha256
import Docweave.Text.Newline

set_option autoImplicit false

/-! # Caches addressed by content

A cache holds values under the digests of the texts they were made from. Line ends are normalized
first, so that texts which only differ in them share an entry. There is one entry for each digest, and
nothing is ever removed. -/

namespace Docweave

open Docweave.Text

/-- The digest that a text is held under. -/
def contentKey (s : List Char) : Digest := .ofText (normalizeNewlines s)

/-- The entries of a list with the one for `key` replaced, or a new one at the end. -/
def putEntry {α : Type} (key : Digest) (value : α) : List (Digest × α) → List (Digest × α)
  | [] => [(key, value)]
  | entry :: rest =>
    if entry.1 = key then (key, value) :: rest else entry :: putEntry key value rest

/-- Values under the digests of texts. -/
structure ContentCache (α : Type) where
  /-- The entries, in the order in which their digests came in. -/
  entries : List (Digest × α)

namespace ContentCache

variable {α : Type}

/-- The cache that holds nothing. -/
def empty : ContentCache α := ⟨[]⟩

/-- The value held under a digest. -/
def get? (cache : ContentCache α) (key : Digest) : Option α :=
  (cache.entries.find? (·.1 == key)).map (·.2)

/-- There is a value under the digest. -/
def contains (cache : ContentCache α) (key : Digest) : Bool := (cache.get? key).isSome

/-- The cache with a value under a digest, in place of the one that was there. -/
def insert (cache : ContentCache α) (key : Digest) (value : α) : ContentCache α :=
  ⟨putEntry key value cache.entries⟩

/-- The number of values. -/
def size (cache : ContentCache α) : Nat := cache.entries.length

/-- What was put in comes out. -/
theorem get?_insert_self (cache : ContentCache α) (key : Digest) (value : α) :
    (cache.insert key value).get? key = some value := by
  obtain ⟨entries⟩ := cache
  unfold insert get?
  induction entries with
  | nil => simp [putEntry]
  | cons entry rest ih =>
    by_cases h : entry.1 = key
    · simp [putEntry, h]
    · have hb : (entry.1 == key) = false := by simpa using h
      simpa [putEntry, h, List.find?_cons, hb] using ih

/-- The other entries stay. -/
theorem get?_insert_of_ne (cache : ContentCache α) {key other : Digest} (value : α)
    (hne : other ≠ key) : (cache.insert key value).get? other = cache.get? other := by
  obtain ⟨entries⟩ := cache
  have hb : (key == other) = false := by simpa using fun h : key = other => hne h.symm
  unfold insert get?
  induction entries with
  | nil => simp [putEntry, hb]
  | cons entry rest ih =>
    by_cases h : entry.1 = key
    · simp [putEntry, h, hb]
    · by_cases ho : (entry.1 == other) = true
      · simp [putEntry, h, ho]
      · rw [Bool.not_eq_true] at ho
        simpa [putEntry, h, List.find?_cons, ho] using ih

end ContentCache

end Docweave
