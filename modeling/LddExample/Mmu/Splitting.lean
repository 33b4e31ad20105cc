import LddExample.Mmu.Granularity
import LddExample.Mmu.IndexBounds

/-!
# Splitting keeps the meaning of the tables

`resolve t va` follows the table entries through the image: the entry below a table entry is the
object that stands in `items` at the offset `entry_addr` plus eight times the index.

* `Layout.resolve_eq_lookup`: with the layout, the image and the lists give the same translation.
* `mmumap_other`, `layout_of_mmumapAll`: any calls of `mmumap` that return keep the layout.
* **`realloctb_keeps_resolve`**: `realloctb` keeps the translation of every address and makes
  tables of the entries above the range.
-/

namespace LddExample.Mmu

open Loop

namespace MMUTablel3

variable {t t' : MMUTablel3}

/-! ## The translation through the image -/

/-- The entry for `va` in the table of level `lvl` that the table entry `e` points to. -/
def below (t : MMUTablel3) (e : MMUTable) (lvl : Level) (va : ℕ) : Option MMUTable :=
  t.items[e.entryAddr / 8 + va / 2 ^ lvl.ln % 512]?.map t.table

/-- **The translation of `va` through the image**: its address and its memory attributes, or
`none` for a fault. -/
def resolve (t : MMUTablel3) (va : ℕ) : Option (ℕ × ℕ) :=
  let e₁ := t.table ⟨.l1, va / 2 ^ 30⟩
  translate .l1 e₁ va <| (t.below e₁ .l2 va).bind fun e₂ =>
  translate .l2 e₂ va <| (t.below e₂ .l3 va).bind fun e₃ =>
  translate .l3 e₃ va none

/-- A table entry leads to the entry of the next level for the same address. -/
theorem Layout.below_eq (ht : Layout t) {lvl : Level} (hl : lvl ≠ .l3) {va : ℕ}
    (ha : (t.entry lvl va).attr = ttS1AttrTable) :
    t.below (t.entry lvl va) lvl.down va = some (t.entry lvl.down va) := by
  rw [below, ht.item_below hl ha]
  rfl

/-- **The image and the lists give the same translation.** -/
theorem Layout.resolve_eq_lookup (ht : Layout t) (va : ℕ) : t.resolve va = t.lookup va := by
  unfold resolve lookup
  refine translate_congr fun h₁ => ?_
  have hl2 : t.below (t.table ⟨.l1, va / 2 ^ 30⟩) .l2 va = some (t.entry .l2 va) :=
    ht.below_eq (show Level.l1 ≠ .l3 by simp) h₁
  rw [hl2, Option.bind_some]
  refine translate_congr fun h₂ => ?_
  have hl3 : t.below (t.entry .l2 va) .l3 va = some (t.entry .l3 va) :=
    ht.below_eq (show Level.l2 ≠ .l3 by simp) h₂
  rw [hl3, Option.bind_some]

/-! ## The states that are reached -/

theorem Layout.ensureTable (ht : Layout t) {up : Ref} (hup : up.lvl ≠ .l3) :
    Layout (t.ensureTable up) := by
  unfold MMUTablel3.ensureTable
  split_ifs
  · exact ht.split hup
  · exact ht

theorem Layout.realloctbStep (ht : Layout t) (pos : ℕ) (gran : Gran) :
    Layout (t.realloctbStep pos gran) := by
  cases gran with
  | g1G | other name => exact ht
  | g2M => exact ht.ensureTable (by simp)
  | g4K => exact (ht.ensureTable (by simp)).ensureTable (by simp)

theorem Layout.realloctb (ht : Layout t) {gran : Gran} (hg : gran.Known) {start stop : ℕ}
    (h : t.realloctb start stop gran = .ok t') : Layout t' := by
  obtain ⟨-, ht', -⟩ := realloctb_induction hg.size_pos (I := fun u _ => Layout u)
    (fun u pos hu _ _ => hu.realloctbStep pos gran) ht h
  exact ht'

/-- A call with an unknown granularity that returns has changed nothing. -/
theorem mmumap_other {e : MapEntry} {name : String} (hg : e.gran = .other name)
    (h : t.mmumap e = .ok t') : t' = t := by
  rw [mmumap, hg] at h
  obtain ⟨u, hu, h⟩ := bind_eq_ok h
  obtain ⟨s, hs, h⟩ := bind_eq_ok h
  cases h
  obtain ⟨s', hs', hu⟩ := bind_eq_ok hu
  cases hu
  have hfirst : s'.1 = t := (whileLt_induction (I := fun s => s.1 = t)
    (fun s s' hs _ hb => by cases hb; exact hs) rfl hs').1
  exact (whileLt_induction (I := fun s => s.1 = t)
    (fun s s' hs _ hb => by cases hb; exact hs) hfirst hs).1

theorem Layout.mmumap (ht : Layout t) {e : MapEntry} (h : t.mmumap e = .ok t') : Layout t' := by
  rcases e.gran.known_or_other with hknown | ⟨name, hother⟩
  · exact mmumap_preserves hknown.size_pos (fun t r ht hr _ => ht.split hr)
      (fun t r phy ht _ _ => ht.setEntry _ _ _) ht h
  · rw [mmumap_other hother h]
    exact ht

theorem layout_of_mmumapAll {es : List MapEntry} (h : init.mmumapAll es = .ok t) : Layout t :=
  mmumapAll_preserves (Q := fun _ => True) (fun _ _ _ _ ht h => ht.mmumap h) (fun _ _ => trivial)
    layout_init h

end MMUTablel3

open MMUTablel3 in
/-- **Splitting keeps the translation of every address**, and afterwards the entries above the
range that `realloctb` steps over are tables. -/
theorem realloctb_keeps_resolve (es : List MapEntry) (t : MMUTablel3)
    (h : init.mmumapAll es = .ok t) (start stop : ℕ) (gran : Gran) (hg : gran.Known)
    (hidx : IndicesInRange start stop gran) :
    ∃ t', t.realloctb start stop gran = .ok t' ∧ (∀ va, t'.resolve va = t.resolve va) ∧
      ∀ va, realloctbStart start gran ≤ va → va < stop →
        (gran = .g2M ∨ gran = .g4K → (t'.table ⟨.l1, va / 2 ^ 30⟩).attr = ttS1AttrTable) ∧
        (gran = .g4K → (t'.table ⟨.l2, va / 2 ^ 21⟩).attr = ttS1AttrTable) := by
  obtain ⟨t', ht'⟩ := t.realloctb_ok hg hidx
  have hlayout := layout_of_mmumapAll h
  obtain ⟨-, hlook, htab⟩ := (reached_mmumapAll h).attr.realloctb hg.size_pos ht'
  refine ⟨t', ht', fun va => ?_, fun va hle hlt => ?_⟩
  · rw [(hlayout.realloctb hg ht').resolve_eq_lookup, hlayout.resolve_eq_lookup, hlook]
  · have habove := htab va hle hlt
    have h₁ : va / 2 ^ 21 / 512 = va / 2 ^ 30 := div_two_pow_down (show Level.l1 ≠ .l3 by simp) va
    have h₂ : va / 2 ^ 12 / 512 = va / 2 ^ 21 := div_two_pow_down (show Level.l2 ≠ .l3 by simp) va
    rcases hg with rfl | rfl | rfl
    · refine ⟨?_, ?_⟩
      · rintro (hne | hne) <;> cases hne
      · intro hne
        cases hne
    · refine ⟨fun _ => h₁ ▸ habove, ?_⟩
      intro hne
      cases hne
    · obtain ⟨hl1, hl2⟩ := habove
      simp only [Gran.size, h₂, h₁] at hl1 hl2
      exact ⟨fun _ => hl1, fun _ => hl2⟩

open MMUTablel3 in
/-- The tables of `sampleMap`, split over two regions of 2 MB. -/
theorem realloctb_sampleMap : ∃ t t', init.mmumapAll sampleMap = .ok t ∧
    t.realloctb 0x3ff000 0x401000 .g4K = .ok t' ∧ (∀ va, t'.resolve va = t.resolve va) ∧
      (t'.table ⟨.l2, 1⟩).attr = ttS1AttrTable ∧ (t'.table ⟨.l2, 2⟩).attr = ttS1AttrTable := by
  obtain ⟨t, ht, -⟩ := sampleMap_ok
  have hidx : IndicesInRange 0x3ff000 0x401000 .g4K := by
    intro pos _ hlt
    rw [Nat.shiftRight_eq_div_pow, Nat.shiftRight_eq_div_pow, Nat.shiftRight_eq_div_pow]
    simp only [size, entryNum]
    omega
  obtain ⟨t', ht', hkeep, htab⟩ := realloctb_keeps_resolve sampleMap t ht 0x3ff000 0x401000 .g4K
    (.inr (.inr rfl)) hidx
  refine ⟨t, t', ht, ht', hkeep, ?_, ?_⟩
  · exact (htab 0x3ff000 (by decide) (by decide)).2 rfl
  · exact (htab 0x400000 (by decide) (by decide)).2 rfl

end LddExample.Mmu
