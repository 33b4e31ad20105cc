import Mathlib.Data.List.Basic
import Mathlib.Data.List.GetD
import Mathlib.Data.Nat.Bitwise
import Mathlib.Tactic.Ring

/-!
# Little-endian words in byte lists

* `leBytes n x`, `leVal l`: the `n` low bytes of `x`, least significant first, and back;
  **`leVal_leBytes`**.
* `readLE mem a n`: the word of `n` bytes at address `a` of a memory.
* `Loaded mem addr b`: the bytes `b` stand at address `addr`.
* **`readLE_flatMap`**: reading the `p`-th word of a loaded table of words.
* `or_eq_add`: `|||` of a multiple of `2 ^ i` and a number below `2 ^ i` is their sum.
* `toNat_succ`: a 32-bit counter with room for one more.
-/

namespace LddExample.Bytes

/-- The `n` low bytes of `x`, least significant first. -/
def leBytes : ℕ → ℕ → List UInt8
  | 0, _ => []
  | n + 1, x => UInt8.ofNat (x % 256) :: leBytes n (x / 256)

theorem toNat_succ {x : UInt32} (h : x.toNat + 1 < 2 ^ 32) : (x + 1).toNat = x.toNat + 1 := by
  rw [UInt32.toNat_add]
  exact Nat.mod_eq_of_lt h

/-- The number whose little-endian bytes are given. -/
def leVal : List UInt8 → ℕ
  | [] => 0
  | b :: l => b.toNat + 256 * leVal l

@[simp] theorem length_leBytes (n x : ℕ) : (leBytes n x).length = n := by
  induction n generalizing x with
  | zero => rfl
  | succ n ih => simp [leBytes, ih]

/-- **Writing and reading a word keeps its low bytes.** -/
theorem leVal_leBytes (n x : ℕ) : leVal (leBytes n x) = x % 256 ^ n := by
  induction n generalizing x with
  | zero => simp [leBytes, leVal, Nat.mod_one]
  | succ n ih =>
    have hb : (UInt8.ofNat (x % 256)).toNat = x % 256 := by
      simp [UInt8.toNat_ofNat']
    rw [leBytes, leVal, ih, hb, pow_succ, Nat.mul_comm (256 ^ n) 256, Nat.mod_mul]

theorem leVal_leBytes_of_lt {n x : ℕ} (h : x < 256 ^ n) : leVal (leBytes n x) = x := by
  rw [leVal_leBytes, Nat.mod_eq_of_lt h]

/-- The little-endian word of `n` bytes at address `a`. -/
def readLE (mem : ℕ → UInt8) (a n : ℕ) : ℕ := leVal ((List.range n).map fun i => mem (a + i))

/-- The bytes `b` stand in memory from address `addr` on. -/
def Loaded (mem : ℕ → UInt8) (addr : ℕ) (b : List UInt8) : Prop :=
  ∀ i x, b[i]? = some x → mem (addr + i) = x

theorem getElem?_flatMap_block {α : Type*} {n : ℕ} (f : α → List UInt8) (xs : List α)
    (hf : ∀ x ∈ xs, (f x).length = n) (p i : ℕ) (hi : i < n) {x : α} (hx : xs[p]? = some x) :
    (xs.flatMap f)[n * p + i]? = (f x)[i]? := by
  induction xs generalizing p with
  | nil => simp at hx
  | cons y ys ih =>
    have hy : (f y).length = n := hf y List.mem_cons_self
    rw [List.flatMap_cons]
    cases p with
    | zero =>
      obtain rfl : y = x := by simpa using hx
      rw [Nat.mul_zero, Nat.zero_add, List.getElem?_append_left (by omega)]
    | succ p =>
      have he : n * (p + 1) + i = n + (n * p + i) := by ring
      rw [he, List.getElem?_append_right (by omega), hy, Nat.add_sub_cancel_left]
      exact ih (fun z hz => hf z (List.mem_cons_of_mem _ hz)) p (by simpa using hx)

/-- **Reading the `p`-th word of a loaded table of words.** -/
theorem readLE_flatMap {α : Type*} {mem : ℕ → UInt8} {addr n : ℕ} {xs : List α} {w : α → ℕ}
    (hm : Loaded mem addr (xs.flatMap fun x => leBytes n (w x))) {p : ℕ} {x : α}
    (hx : xs[p]? = some x) (hw : w x < 256 ^ n) : readLE mem (addr + n * p) n = w x := by
  have hl : (List.range n).map (fun i => mem (addr + n * p + i)) = leBytes n (w x) := by
    refine List.ext_getElem? fun i => ?_
    by_cases hi : i < n
    · have hb := getElem?_flatMap_block (fun x => leBytes n (w x)) xs (by simp) p i hi hx
      have hi' : i < (leBytes n (w x)).length := by simpa using hi
      rw [List.getElem?_map, List.getElem?_range hi, Option.map_some,
        List.getElem?_eq_getElem hi', Nat.add_assoc, hm (n * p + i) _
          (hb.trans (List.getElem?_eq_getElem hi'))]
    · rw [List.getElem?_eq_none (by simpa using hi), List.getElem?_eq_none (by simpa using hi)]
  rw [readLE, hl, leVal_leBytes_of_lt hw]

/-- Bits that do not overlap: `|||` is `+`. -/
theorem or_eq_add {i a b : ℕ} (ha : 2 ^ i ∣ a) (hb : b < 2 ^ i) : a ||| b = a + b := by
  obtain ⟨q, rfl⟩ := ha
  exact (Nat.two_pow_add_eq_or_of_lt hb q).symm

end LddExample.Bytes
