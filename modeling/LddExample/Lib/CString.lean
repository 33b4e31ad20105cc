import Mathlib.Data.List.Basic
import Mathlib.Data.List.GetD
import Mathlib.Data.List.TakeWhile

/-!
# NUL-terminated strings in a byte buffer

A pointer into the buffer is an index. The buffer is written in place, so the string at a pointer
changes with every byte before its end.

* `cstr mem p`: the string at `p`; `strlen`, `strchr` as in C, for the string at the start.
* **`cstr_append`**: the string that stands behind `front` and ends with a NUL.
* `set_append_cons`: writing the byte behind `front`.
-/

namespace LddExample.CString

/-- The string at `p`. -/
def cstr (mem : List UInt8) (p : ℕ) : List UInt8 :=
  (mem.drop p).takeWhile (· ≠ 0)

/-- `strlen(mem)` -/
def strlen (mem : List UInt8) : ℕ :=
  (cstr mem 0).length

/-- `strchr(mem, c)`, for a `c` other than NUL -/
def strchr (mem : List UInt8) (c : UInt8) : Option ℕ :=
  (cstr mem 0).idxOf? c

/-- **The string behind `front`.** -/
theorem cstr_append (front : List UInt8) {text : List UInt8} (h : 0 ∉ text) (rest : List UInt8)
    {p : ℕ} (hp : p = front.length) : cstr (front ++ (text ++ 0 :: rest)) p = text := by
  rw [cstr, hp, List.drop_left, List.takeWhile_append_of_pos, List.takeWhile_cons_of_neg]
  · exact List.append_nil _
  · simp
  · intro c hc
    exact decide_eq_true fun h0 => h (h0 ▸ hc)

theorem strlen_append {text : List UInt8} (h : 0 ∉ text) (rest : List UInt8) :
    strlen (text ++ 0 :: rest) = text.length := by
  rw [strlen]
  exact congrArg _ (cstr_append [] h rest rfl)

theorem strchr_append {text : List UInt8} (h : 0 ∉ text) (rest : List UInt8) (c : UInt8) :
    strchr (text ++ 0 :: rest) c = text.idxOf? c := by
  rw [strchr]
  exact congrArg _ (cstr_append [] h rest rfl)

theorem idxOf?_append_cons {front : List UInt8} {c : UInt8} (h : c ∉ front) (rest : List UInt8) :
    (front ++ c :: rest).idxOf? c = some front.length := by
  induction front with
  | nil => simp [List.idxOf?_cons]
  | cons a front ih =>
    rw [List.mem_cons, not_or] at h
    rw [List.cons_append, List.idxOf?_cons, if_neg (by simpa using Ne.symm h.1), ih h.2]
    rfl

theorem set_append_cons {front : List UInt8} (c x : UInt8) (rest : List UInt8) {p : ℕ}
    (hp : p = front.length) : (front ++ c :: rest).set p x = front ++ x :: rest := by
  rw [List.set_append_right _ _ (by omega), hp, Nat.sub_self, List.set_cons_zero]

theorem getD_append_cons {front : List UInt8} (c : UInt8) (rest : List UInt8) {p : ℕ}
    (hp : p = front.length) : (front ++ c :: rest).getD p 0 = c := by
  rw [List.getD_append_right _ _ _ _ (by omega), hp, Nat.sub_self, List.getD_cons_zero]

end LddExample.CString
