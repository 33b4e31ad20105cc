import LddExample.Mmu.IndexBounds

/-!
# Coverage of unaligned map entries

The loop of `mmumap` steps by whole granules from `virt_begin` on and writes the entry of the
granule it stands in. From an unaligned start it can end before the last granule of the range.

* `granules_eq`: the number of turns, from the length of the range alone.
* **`covers_range_iff`**: the whole range is mapped exactly when its last granule is one of these.
-/

namespace LddExample.Mmu

open Loop MMUTablel3

/-- The length of the physical range. -/
def MapEntry.len (e : MapEntry) : ℕ :=
  e.phyEnd - e.phyBegin

theorem granules_eq {G len n : ℕ} (hin : ∀ j < n, j * G < len) (hout : len ≤ n * G)
    (hlen : 0 < len) : n = (len - 1) / G + 1 := by
  have hdm := Nat.div_add_mod (len - 1) G
  have hG : 0 < G := by
    rcases Nat.eq_zero_or_pos G with rfl | hG
    · omega
    · exact hG
  have hlt := Nat.mod_lt (len - 1) hG
  rw [Nat.mul_comm] at hdm
  refine Nat.le_antisymm ?_ ?_
  · by_contra hc
    have := hin ((len - 1) / G + 1) (by omega)
    rw [Nat.add_mul] at this
    omega
  · by_contra hc
    have := Nat.mul_le_mul_right G (show n ≤ (len - 1) / G by omega)
    omega

theorem lookup_init (va : ℕ) : init.lookup va = none := rfl

/-- **The range of a map entry is mapped in full exactly when it is empty or its last byte is in one
of the granules that are written.** -/
theorem covers_range_iff (e : MapEntry) (hknown : e.gran.Known) (hle : e.phyBegin ≤ e.phyEnd)
    (hmod : e.phyBegin % e.gran.size = e.virtBegin % e.gran.size)
    (hidx : init.mmumap e ≠ .error .indexError) :
    (∀ es t t', init.mmumapAll es = .ok t → t.mmumap e = .ok t' →
      ∀ va, e.virtBegin ≤ va → va < e.virtBegin + (e.phyEnd - e.phyBegin) →
        t'.lookup va = some (e.phyBegin + (va - e.virtBegin), e.attr)) ↔
      e.len = 0 ∨ e.virtBegin % e.gran.size + (e.len - 1) % e.gran.size < e.gran.size := by
  have hg := hknown.size_pos
  have hstop : e.stop = e.virtBegin + e.len := by
    rw [MapEntry.stop, MapEntry.len]
    omega
  have hlen : e.phyEnd - e.phyBegin = e.len := rfl
  have hvirt := Nat.div_add_mod e.virtBegin e.gran.size
  have hphy := Nat.div_add_mod e.phyBegin e.gran.size
  have hlast := Nat.div_add_mod (e.len - 1) e.gran.size
  rw [hlen]
  constructor
  · intro hall
    by_contra hcond
    obtain ⟨t', ht'⟩ := mmumap_eq_ok hknown hidx
    obtain ⟨n, hin, hout, hlook⟩ := attrOk_init.lookup_mmumap_granules hg ht'
    have hn : n = (e.len - 1) / e.gran.size + 1 :=
      granules_eq (fun j hj => by have := hin j hj; omega) (by omega) (by omega)
    -- the last byte of the range is behind the last granule
    have hva := hall [] init t' rfl ht' (e.virtBegin + (e.len - 1)) (by omega) (by omega)
    rw [hlook, if_neg, lookup_init] at hva
    · cases hva
    · rintro ⟨-, hlt⟩
      rw [hn, Nat.add_mul, Nat.one_mul, Nat.mul_comm _ e.gran.size] at hlt
      omega
  · intro hcond es t t' ht ht' va hva hlt
    obtain ⟨n, hin, hout, hlook⟩ := (reached_mmumapAll ht).attr.lookup_mmumap_granules hg ht'
    have hn : n = (e.len - 1) / e.gran.size + 1 :=
      granules_eq (fun j hj => by have := hin j hj; omega) (by omega) (by omega)
    rw [hlook, if_pos]
    · congr 2
      omega
    · rw [hn, Nat.add_mul, Nat.one_mul, Nat.mul_comm _ e.gran.size]
      omega

/-- The second half of a page. -/
def halfPage : MapEntry := ⟨0x5800, 0x6000, 0x3800, .g4K, genElxbinAttr false .cacheable⟩

theorem covers_halfPage : halfPage.virtBegin % halfPage.gran.size = 0x800 ∧
    ∀ es t t', init.mmumapAll es = .ok t → t.mmumap halfPage = .ok t' →
      ∀ va, 0x3800 ≤ va → va < 0x4000 →
        t'.lookup va = some (0x5800 + (va - 0x3800), genElxbinAttr false .cacheable) := by
  have hidx : init.mmumap halfPage ≠ .error .indexError := by
    obtain ⟨t', ht'⟩ := mmumap_g4K_ok (t := init) (e := halfPage) rfl (.inl (by decide))
    rw [ht']
    nofun
  refine ⟨by decide, ?_⟩
  exact (covers_range_iff halfPage (.inr (.inr rfl)) (by decide) (by decide) hidx).2
    (.inr (by decide))

/-- Two halves of neighbouring pages. -/
def twoHalves : MapEntry := ⟨0x800, 0x1800, 0x800, .g4K, genElxbinAttr false .cacheable⟩

/-- **The second of two half pages is not mapped.** -/
theorem twoHalves_not_covered : ∃ t', init.mmumap twoHalves = .ok t' ∧
    t'.lookup 0x1000 ≠ some (0x1000, genElxbinAttr false .cacheable) := by
  have h : (init.mmumap twoHalves).toOption.map (fun t => t.lookup 0x1000) = some none := by
    decide +kernel
  generalize init.mmumap twoHalves = r at h
  cases r with
  | error e => cases h
  | ok t' =>
    refine ⟨t', rfl, ?_⟩
    rw [show t'.lookup 0x1000 = none from Option.some.inj h]
    nofun

end LddExample.Mmu
