import LddExample.Mmu.Translate

/-!
# Indices of a map entry of granularity 4K

The lists of the three levels cover 512 GB, 512 GB and 8 GB of the virtual range.

* `L3Below`: only entries for the first 8 GB are split into a table of level 3.
* `Reached`, `reached_mmumapAll`: what holds after any calls of `mmumap`.
* `realloctbBody_g4K_lt`, `realloctbBody_g4K_ok`: one turn of `realloctb` keeps to the lists exactly
  below 8 GB.
* `IndicesInRange`, `realloctb_ok`: `realloctb` succeeds when its indices are in the lists.
* **`mmumap_in_bounds_iff`**: an entry keeps to the lists exactly when it ends there or `realloctb`
  makes no turn for it.
-/

namespace LddExample.Mmu

open Loop

namespace MMUTablel3

variable {t t' : MMUTablel3}

/-! ## Splitting within the lists -/

theorem fetch_ok {r : Ref} (h : r.idx < size r.lvl) : t.fetch r = .ok (t.table r) :=
  if_pos h

theorem store_ok {r : Ref} (h : r.idx < size r.lvl) (e : MMUTable) :
    t.store r e = .ok { t with table := Function.update t.table r e } :=
  if_pos h

theorem reallocBody_ok (t : MMUTablel3) {up : Ref} {lvl : Level} {base i : ℕ}
    (shift childAttr : ℕ) (hup : up.idx < size up.lvl) (hi : base + i < size lvl) :
    ∃ t', reallocBody up lvl base shift childAttr t i = .ok t' := by
  have hc : t.fetch ⟨lvl, base + i⟩ = .ok (t.table ⟨lvl, base + i⟩) := fetch_ok hi
  simp only [reallocBody, fetch_ok hup, hc, Except.bind]
  rw [store_ok (r := ⟨lvl, base + i⟩) hi]
  exact ⟨_, rfl⟩

theorem foldlM_reallocBody_ok (t : MMUTablel3) {up : Ref} {lvl : Level} {base : ℕ}
    (shift childAttr : ℕ) (hup : up.idx < size up.lvl) (n : ℕ) (hn : base + n ≤ size lvl) :
    ∃ t', (List.range n).foldlM (reallocBody up lvl base shift childAttr) t = .ok t' := by
  induction n with
  | zero => exact ⟨t, rfl⟩
  | succ n ih =>
    obtain ⟨u, hu⟩ := ih (by omega)
    obtain ⟨v, hv⟩ := u.reallocBody_ok shift childAttr hup (show base + n < size lvl by omega)
    refine ⟨v, ?_⟩
    rw [List.range_succ, List.foldlM_append, hu]
    change (reallocBody up lvl base shift childAttr u n).bind _ = _
    rw [hv]
    rfl

theorem realloc_ok (t : MMUTablel3) {up : Ref} {lvl : Level} {base n : ℕ} (shift childAttr : ℕ)
    (hup : up.idx < size up.lvl) (hn : 0 < n) (hbase : base + n ≤ size lvl) :
    ∃ t', t.realloc up lvl base shift childAttr n = .ok t' := by
  rw [realloc, fetch_ok hup, Except.bind]
  split
  next =>
    obtain ⟨u, hu⟩ := t.foldlM_reallocBody_ok shift childAttr hup n hbase
    have hc : u.fetch ⟨lvl, base⟩ = .ok (u.table ⟨lvl, base⟩) := fetch_ok (by dsimp only; omega)
    simp only [hu, Except.bind, hc, fetch_ok hup, store_ok hup]
    exact ⟨_, rfl⟩
  next => exact ⟨t, rfl⟩

theorem realloc_bound {up : Ref} {lvl : Level} {base shift childAttr n : ℕ}
    (h : t.realloc up lvl base shift childAttr (n + 1) = .ok t')
    (ha : (t.table up).attr = ttS1AttrFault ∨ (t.table up).attr = ttS1AttrBlock) :
    base + n < size lvl := by
  rw [ttS1AttrFault] at ha
  obtain ⟨e, he, h⟩ := bind_eq_ok h
  obtain ⟨-, rfl⟩ := fetch_eq_ok _ he
  rw [if_pos ha] at h
  obtain ⟨u, hu, -⟩ := bind_eq_ok h
  rw [List.range_succ, List.foldlM_append] at hu
  obtain ⟨v, -, hu⟩ := bind_eq_ok hu
  rw [List.foldlM_cons] at hu
  obtain ⟨w, hw, -⟩ := bind_eq_ok hu
  obtain ⟨e, -, hw⟩ := bind_eq_ok hw
  obtain ⟨c, hc, -⟩ := bind_eq_ok hw
  exact (fetch_eq_ok _ hc).1

/-! ## The states that are reached -/

/-- Only entries for the first 8 GB are split into a table of level 3. -/
def L3Below (t : MMUTablel3) : Prop :=
  ∀ r : Ref, r.lvl = .l2 → (t.table r).attr = ttS1AttrTable → r.idx < 2 ^ 12

theorem L3Below.split (h : t.L3Below) {up : Ref} (hlow : up.lvl = .l2 → up.idx < 2 ^ 12) :
    (t.split up).L3Below := by
  refine forall_split t up (fun r e => r.lvl = .l2 → e.attr = ttS1AttrTable → r.idx < 2 ^ 12)
    (fun hl _ => hlow hl) (fun r hp hl ha => ?_) h
  rw [← hp.1, hl] at ha
  exact absurd ha (child_l2_ne_table _ _ _ _)

theorem L3Below.ensureTable (h : t.L3Below) {up : Ref} (hlow : up.lvl = .l2 → up.idx < 2 ^ 12) :
    (t.ensureTable up).L3Below := by
  unfold MMUTablel3.ensureTable
  split_ifs
  · exact h.split hlow
  · exact h

theorem L3Below.setEntry (h : t.L3Below) (r : Ref) (entry memAttr : ℕ) :
    (t.setEntry r entry memAttr).L3Below := by
  refine forall_setEntry t r entry memAttr
    (fun r e => r.lvl = .l2 → e.attr = ttS1AttrTable → r.idx < 2 ^ 12) (fun hl ha => ?_) h
  dsimp only at ha
  rw [hl] at ha
  exact absurd ha (by decide)

/-- What holds after any calls of `mmumap`. -/
structure Reached (t : MMUTablel3) : Prop where
  attr : t.AttrOk
  below : t.L3Below

theorem reached_init : init.Reached where
  attr := attrOk_init
  below := fun _ _ ha => absurd ha (by simp [init, ttS1AttrTable])

theorem Reached.ensureL1 (h : t.Reached) (g : ℕ) : (t.ensureTable ⟨.l1, g⟩).Reached where
  attr := h.attr.ensureTable
  below := h.below.ensureTable (by simp)

/-- **A turn of `realloctb` that succeeds is below 8 GB.** -/
theorem realloctbBody_g4K_lt {pos : ℕ} {s' : MMUTablel3 × ℕ} (ht : t.Reached)
    (hpos : 2 ^ 21 ∣ pos) (h : realloctbBody .g4K (t, pos) = .ok s') :
    pos < 2 ^ 33 ∧ s'.1.Reached ∧ s'.2 = pos + 2 ^ 21 := by
  obtain ⟨u, hu, h⟩ := bind_eq_ok h
  obtain ⟨v, hv, h⟩ := bind_eq_ok h
  cases h
  obtain rfl := t.reallocL2_eq hu
  have hu' : (t.ensureTable ⟨.l1, pos / 2 ^ 30⟩).Reached := ht.ensureL1 _
  generalize t.ensureTable ⟨.l1, pos / 2 ^ 30⟩ = u at hv hu'
  have hm : pos / 2 ^ 21 < 2 ^ 12 := by
    rcases hu'.attr ⟨.l2, pos / 2 ^ 21⟩ with ha | ha | ha
    · have := realloc_bound hv (.inl (by rwa [Nat.shiftRight_eq_div_pow]))
      rw [Nat.shiftRight_eq_div_pow, size, entryNum] at this
      omega
    · have := realloc_bound hv (.inr (by rwa [Nat.shiftRight_eq_div_pow]))
      rw [Nat.shiftRight_eq_div_pow, size, entryNum] at this
      omega
    · exact hu'.below _ rfl ha
  obtain rfl := u.reallocL3_eq hpos hv
  exact ⟨by omega, ⟨hu'.attr.ensureTable, hu'.below.ensureTable fun _ => hm⟩, rfl⟩

theorem Reached.realloctb (ht : t.Reached) {start stop : ℕ} {gran : Gran}
    (h : t.realloctb start stop gran = .ok t') : t'.Reached := by
  obtain ⟨s, hs, h⟩ := bind_eq_ok h
  cases h
  have hstart : gran = .g4K → 2 ^ 21 ∣ realloctbStart start gran := by
    rintro rfl
    exact Nat.dvd_sub_mod start
  refine (whileLt_induction (I := fun s => s.1.Reached ∧ (gran = .g4K → 2 ^ 21 ∣ s.2)) ?_
    ⟨ht, hstart⟩ hs).1.1
  rintro ⟨u, pos⟩ s' ⟨hu, hpos⟩ - hbody
  cases gran with
  | g1G | other name =>
    cases hbody
    exact ⟨hu, nofun⟩
  | g2M =>
    obtain ⟨v, hv, hbody⟩ := bind_eq_ok hbody
    cases hbody
    rw [u.reallocL2_eq hv]
    exact ⟨hu.ensureL1 _, nofun⟩
  | g4K =>
    obtain ⟨-, hs', hnext⟩ := realloctbBody_g4K_lt hu (hpos rfl) hbody
    exact ⟨hs', fun _ => hnext ▸ (Nat.dvd_add_right (hpos rfl)).2 dvd_rfl⟩

theorem Reached.setEntry (h : t.Reached) (r : Ref) (entry memAttr : ℕ) :
    (t.setEntry r entry memAttr).Reached where
  attr := h.attr.setEntry r entry memAttr
  below := h.below.setEntry r entry memAttr

theorem Reached.mmumap (ht : t.Reached) {e : MapEntry} (h : t.mmumap e = .ok t') : t'.Reached := by
  obtain ⟨u, hu, h⟩ := bind_eq_ok h
  obtain ⟨s, hs, h⟩ := bind_eq_ok h
  cases h
  refine (whileLt_induction (I := fun s => s.1.Reached) ?_ (ht.realloctb hu) hs).1
  rintro ⟨v, start, phy⟩ s' hv - hbody
  cases hg : e.gran with
  | other name =>
    rw [hg] at hbody
    cases hbody
    exact hv
  | g1G | g2M | g4K =>
    rw [hg] at hbody
    rw [mmumapBody_eq (Nat.two_pow_pos _) hbody]
    exact hv.setEntry _ _ _

theorem reached_mmumapAll {es : List MapEntry} (h : init.mmumapAll es = .ok t) : t.Reached :=
  mmumapAll_preserves (Q := fun _ => True) (fun _ _ _ _ ht h => ht.mmumap h) (fun _ _ => trivial)
    reached_init h

/-! ## An entry of granularity 4K -/

theorem reallocL2_ok (t : MMUTablel3) {pos : ℕ} (hlt : pos < 2 ^ 39) :
    ∃ t', t.reallocL2 (pos >>> 30) (pos >>> 21) 512 = .ok t' := by
  rw [Nat.shiftRight_eq_div_pow, Nat.shiftRight_eq_div_pow]
  refine t.realloc_ok 21 ttS1AttrBlock ?_ (by decide) ?_
  · change pos / 2 ^ 30 < 512
    omega
  · change pos / 2 ^ 21 - pos / 2 ^ 21 % 512 + 512 ≤ 512 * 512
    omega

theorem reallocL3_ok (t : MMUTablel3) {pos : ℕ} (hpos : 2 ^ 21 ∣ pos) (hlt : pos < 2 ^ 33) :
    ∃ t', t.reallocL3 (pos >>> 21) (pos >>> 12) 512 = .ok t' := by
  rw [Nat.shiftRight_eq_div_pow, Nat.shiftRight_eq_div_pow]
  refine t.realloc_ok 12 ttS1AttrPage ?_ (by decide) ?_
  · change pos / 2 ^ 21 < 512 * 512
    omega
  · change pos / 2 ^ 12 + 512 ≤ 8 * 512 * 512
    omega

theorem realloctbBody_g4K_ok (t : MMUTablel3) {pos : ℕ} (hpos : 2 ^ 21 ∣ pos)
    (hlt : pos < 2 ^ 33) : ∃ s', realloctbBody .g4K (t, pos) = .ok s' := by
  obtain ⟨u, hu⟩ := t.reallocL2_ok (show pos < 2 ^ 39 by omega)
  obtain ⟨v, hv⟩ := u.reallocL3_ok hpos hlt
  refine ⟨(v, pos + 2 ^ 21), ?_⟩
  rw [realloctbBody, hu, Except.bind, hv, Except.bind]

theorem putEntry_ok (t : MMUTablel3) {r : Ref} (h : r.idx < size r.lvl) (entry attr memAttr : ℕ) :
    ∃ t', t.putEntry r entry attr memAttr = .ok t' := by
  rw [putEntry, fetch_ok h, Except.bind, store_ok h]
  exact ⟨_, rfl⟩

theorem mmumapBody_g4K_ok (t : MMUTablel3) (attr : ℕ) {start : ℕ} (phy : ℕ)
    (hlt : start < 2 ^ 33) : ∃ s', mmumapBody .g4K attr (t, start, phy) = .ok s' := by
  have hk : start >>> 12 < size .l3 := by
    rw [Nat.shiftRight_eq_div_pow]
    change start / 2 ^ 12 < 8 * 512 * 512
    omega
  obtain ⟨u, hu⟩ := t.putEntry_ok (r := ⟨.l3, start >>> 12⟩) hk (alignLx .l3 phy) ttS1AttrPage attr
  refine ⟨(u, start + 2 ^ 12, phy + 2 ^ 12), ?_⟩
  rw [mmumapBody, hu, Except.bind]

variable {e : MapEntry}

/-- The indices that the loop of `realloctb` computes are in the lists; granularity `1G` uses
none. -/
def IndicesInRange (start stop : ℕ) (gran : Gran) : Prop :=
  ∀ pos, realloctbStart start gran ≤ pos → pos < stop →
    (gran ≠ .g1G → pos >>> 30 < size .l1 ∧ pos >>> 21 < size .l2) ∧
      (gran = .g4K → pos >>> 12 < size .l3)

theorem realloctbBody_ok (t : MMUTablel3) {gran : Gran} (hg : gran.Known) {pos : ℕ}
    (hdvd : gran ≠ .g1G → realloctbStride gran ∣ pos)
    (h₁ : gran ≠ .g1G → pos >>> 30 < size .l1 ∧ pos >>> 21 < size .l2)
    (h₂ : gran = .g4K → pos >>> 12 < size .l3) : ∃ s', realloctbBody gran (t, pos) = .ok s' := by
  rcases hg with rfl | rfl | rfl
  · exact ⟨_, rfl⟩
  · have hlt : pos >>> 30 < 512 := (h₁ (by simp)).1
    rw [Nat.shiftRight_eq_div_pow] at hlt
    obtain ⟨u, hu⟩ := t.reallocL2_ok (show pos < 2 ^ 39 by omega)
    refine ⟨(u, pos + 2 ^ 30), ?_⟩
    rw [realloctbBody, hu, Except.bind]
  · have hlt : pos >>> 12 < 8 * 512 * 512 := h₂ rfl
    rw [Nat.shiftRight_eq_div_pow] at hlt
    exact t.realloctbBody_g4K_ok (hdvd (by simp)) (by omega)

/-- **`realloctb` succeeds when its indices are in the lists.** -/
theorem realloctb_ok (t : MMUTablel3) {gran : Gran} (hg : gran.Known) {start stop : ℕ}
    (h : IndicesInRange start stop gran) : ∃ t', t.realloctb start stop gran = .ok t' := by
  have hdvd : gran ≠ .g1G → realloctbStride gran ∣ realloctbStart start gran := fun hne => by
    rcases realloctbStart_dvd start hne with hdvd | ⟨name, rfl⟩
    · exact hdvd
    · rcases hg with hg | hg | hg <;> cases hg
  have hpos : 0 < realloctbStride gran := by
    rcases hg with rfl | rfl | rfl <;> exact Nat.two_pow_pos _
  cases hw : whileLt .outOfFuel stop Prod.snd (realloctbBody gran) stop
      (t, realloctbStart start gran) with
  | ok s => exact ⟨s.1, by rw [realloctb, hw]; rfl⟩
  | error err =>
    obtain ⟨⟨u, pos⟩, ⟨hle, hd⟩, hlt, hbody⟩ := whileLt_error_of_inv
      (I := fun s => realloctbStart start gran ≤ s.2 ∧
        (gran ≠ .g1G → realloctbStride gran ∣ s.2))
      (fun s s' hs _ hb => by
        obtain ⟨u, pos⟩ := s
        obtain ⟨hle, hd⟩ := hs
        rw [realloctbBody_eq hd hb]
        exact ⟨⟨Nat.le_add_right_of_le hle, fun hne => Nat.dvd_add (hd hne) dvd_rfl⟩,
          Nat.lt_add_of_pos_right hpos⟩)
      ⟨le_rfl, hdvd⟩ (Nat.le_add_left _ _) hw
    obtain ⟨h₁, h₂⟩ := h pos hle hlt
    obtain ⟨s', hok⟩ := u.realloctbBody_ok hg hd h₁ h₂
    rw [hok] at hbody
    cases hbody

theorem realloctb_g4K_ok {start stop : ℕ} (hstop : stop ≤ 2 ^ 33 ∨ stop ≤ align start (2 ^ 21)) :
    ∃ t', t.realloctb start stop .g4K = .ok t' := by
  refine t.realloctb_ok (.inr (.inr rfl)) fun pos hle hlt => ?_
  have hpos : align start (2 ^ 21) ≤ pos := hle
  rw [Nat.shiftRight_eq_div_pow, Nat.shiftRight_eq_div_pow, Nat.shiftRight_eq_div_pow]
  simp only [size, entryNum]
  omega

theorem mmumap_g4K_ok (hg : e.gran = .g4K)
    (hstop : e.stop ≤ 2 ^ 33 ∨ e.stop ≤ align e.virtBegin (2 ^ 21)) :
    ∃ t', t.mmumap e = .ok t' := by
  have halign : align e.virtBegin (2 ^ 21) ≤ e.virtBegin := Nat.sub_le _ _
  obtain ⟨u, hu⟩ := realloctb_g4K_ok (t := t) hstop
  rw [mmumap, hg, hu, Except.bind]
  cases h : whileLt .outOfFuel e.stop (fun s => s.2.1) (mmumapBody .g4K e.attr) e.stop
      (u, e.virtBegin, e.phyBegin) with
  | ok s => exact ⟨s.1, rfl⟩
  | error err =>
    obtain ⟨⟨v, start, phy⟩, hle, hlt, hbody⟩ := whileLt_error_of_inv
      (I := fun s => e.virtBegin ≤ s.2.1)
      (fun s s' hs _ hb => by
        obtain ⟨v, start, phy⟩ := s
        rw [mmumapBody_eq (Nat.two_pow_pos _) hb]
        exact ⟨Nat.le_trans hs (Nat.le_add_right _ _),
          Nat.lt_add_of_pos_right (Nat.two_pow_pos _)⟩)
      le_rfl (Nat.le_add_left _ _) h
    have hstart : e.virtBegin ≤ start ∧ start < e.stop := ⟨hle, hlt⟩
    obtain ⟨s', hok⟩ := v.mmumapBody_g4K_ok e.attr phy (show start < 2 ^ 33 by omega)
    rw [hok] at hbody
    cases hbody

/-- **The first turn at 8 GB or above fails.** -/
theorem Reached.mmumap_g4K_error (ht : t.Reached) (hg : e.gran = .g4K) (hstop : 2 ^ 33 < e.stop)
    (hturn : align e.virtBegin (2 ^ 21) < e.stop) : t.mmumap e = .error .indexError := by
  have hknown : e.gran.Known := .inr (.inr hg)
  cases h : t.mmumap e with
  | error err => rw [OnlyIndexError.mmumap t hknown err h]
  | ok t' =>
    exfalso
    obtain ⟨u, hu, -⟩ := bind_eq_ok h
    rw [hg] at hu
    obtain ⟨s, hs, -⟩ := bind_eq_ok hu
    have hstart : 2 ^ 21 ∣ align e.virtBegin (2 ^ 21) := Nat.dvd_sub_mod e.virtBegin
    -- the loop stands at its start or has passed a turn below 8 GB
    obtain ⟨⟨-, -, hpos⟩, hend⟩ := whileLt_induction
      (I := fun s => s.1.Reached ∧ 2 ^ 21 ∣ s.2 ∧
        (s.2 = align e.virtBegin (2 ^ 21) ∨ s.2 ≤ 2 ^ 33))
      (fun s s' ⟨hr, hdvd, _⟩ _ hb => by
        obtain ⟨hlt, hr', hnext⟩ := realloctbBody_g4K_lt hr hdvd hb
        exact ⟨hr', by omega, .inr (by omega)⟩)
      ⟨ht, hstart, .inl rfl⟩ hs
    omega

end MMUTablel3

open MMUTablel3 in
/-- **A map entry of granularity 4K keeps to the lists exactly when it ends within 8 GB**, or when
`realloctb` makes no turn for it. -/
theorem mmumap_in_bounds_iff (es : List MapEntry) (t : MMUTablel3)
    (h : init.mmumapAll es = .ok t) (e : MapEntry) (hg : e.gran = .g4K) :
    t.mmumap e ≠ .error .indexError ↔
      e.stop ≤ 2 ^ 33 ∨ e.stop ≤ align e.virtBegin (2 ^ 21) := by
  constructor
  · intro hne
    by_contra hstop
    exact hne ((reached_mmumapAll h).mmumap_g4K_error hg (by omega) (by omega))
  · intro hstop
    obtain ⟨t', ht'⟩ := mmumap_g4K_ok (t := t) hg hstop
    rw [ht']
    nofun

/-- An entry that starts at 0x3000. -/
def lowEntry : MapEntry := ⟨0x5000, 0x6000, 0x3000, .g4K, genElxbinAttr false .device⟩

open MMUTablel3 in
theorem lowEntry_in_bounds : init.mmumap lowEntry ≠ .error .indexError :=
  (mmumap_in_bounds_iff [] init rfl lowEntry rfl).2 (.inl (by decide))

/-- The device entry of `el3` in `mmu.json`. -/
def el3Device : MapEntry :=
  ⟨0x600000000, 0x60fffffff, 0x600000000, .g4K, genElxbinAttr false .device⟩

open MMUTablel3 in
/-- **The device entry of `el3` is outside the list of level 3.** -/
theorem el3Device_indexError :
    el3Device.stop ≤ 2 ^ 39 ∧ init.mmumap el3Device = .error .indexError :=
  ⟨by decide, reached_init.mmumap_g4K_error rfl (by decide) (by decide)⟩

end LddExample.Mmu
