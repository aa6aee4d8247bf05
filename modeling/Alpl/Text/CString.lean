import Mathlib.Data.List.Basic
import Mathlib.Tactic.Common

/-!
# Arrays of characters

An array of `char`, with the characters that nothing has written yet, and the text that a reader of
it finds: the characters up to the first zero.  A reader that meets an unwritten character, or the
end of the array, finds no text.
-/

namespace Text

/-- The character that ends a text. -/
def nul : Char := Char.ofNat 0

/-- `none` is a character that has not been written. -/
abbrev CharArray := List (Option Char)

/-- `new char[n]`. -/
def CharArray.unset (n : ℕ) : CharArray := List.replicate n none

/-- `char a[n] = "text"`: the rest of the array is zero. -/
def CharArray.ofText (n : ℕ) (text : List Char) : CharArray :=
  (text ++ List.replicate (n - text.length) nul).map some

/-- The array after a text with its end has been written to its beginning. -/
def CharArray.write (a : CharArray) (text : List Char) : CharArray :=
  (text ++ [nul]).map some ++ a.drop (text.length + 1)

/-- The text in the array. -/
def CharArray.read : CharArray → Option (List Char)
  | some c :: cs => if c = nul then some [] else (CharArray.read cs).map (c :: ·)
  | _ => none

@[simp] lemma CharArray.read_cons {c : Char} (hc : c ≠ nul) (a : CharArray) :
    CharArray.read (some c :: a) = (CharArray.read a).map (c :: ·) := by
  rw [CharArray.read, if_neg hc]

@[simp] lemma CharArray.read_nul (a : CharArray) : CharArray.read (some nul :: a) = some [] := by
  rw [CharArray.read, if_pos rfl]

@[simp] lemma CharArray.read_unset (n : ℕ) : (CharArray.unset n).read = none := by
  cases n <;> rfl

/-- A text is found up to the zero behind it. -/
lemma CharArray.read_append {text : List Char} (h : nul ∉ text) (a : CharArray) :
    CharArray.read ((text ++ [nul]).map some ++ a) = some text := by
  induction text with
  | nil => simp
  | cons c cs ih =>
      rw [List.mem_cons, not_or] at h
      have hcs := ih h.2
      simp only [List.cons_append, List.map_cons] at hcs ⊢
      rw [CharArray.read_cons (Ne.symm h.1), hcs]
      rfl

lemma CharArray.read_write {text : List Char} (h : nul ∉ text) (a : CharArray) :
    (a.write text).read = some text :=
  CharArray.read_append h _

lemma CharArray.read_ofText {n : ℕ} {text : List Char} (h : nul ∉ text) (hn : text.length < n) :
    (CharArray.ofText n text).read = some text := by
  obtain ⟨k, hk⟩ : ∃ k, n - text.length = k + 1 := ⟨n - text.length - 1, by omega⟩
  rw [CharArray.ofText, hk, List.replicate_succ, List.append_cons, List.map_append]
  exact CharArray.read_append h _

end Text
