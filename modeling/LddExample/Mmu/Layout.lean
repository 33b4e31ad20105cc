import LddExample.Mmu.Model

/-!
# The layout of the page-table image

* `split`: the effect of `realloc_l2` and `realloc_l3` in closed form (`reallocL2_eq`,
  `reallocL3_eq`).
* `Layout`: where the entry objects stand in `items` and what the table entries point to.
* `Layout.split`, `Layout.setEntry`: both ways in which `mmumap` changes the tables keep it.
* `mmumap_preserves`, `mmumapAll_preserves`: a property kept by these two holds after any list of
  `mmumap` calls.
* `mmumapAll_onlyIndexError`: the loops end, and only an index outside the lists is an error.
* **`layout_mmumapAll`**: the layout after any list of `mmumap` calls.
-/

namespace LddExample.Mmu

open Bytes Loop

/-- The level below. -/
def Level.down : Level → Level
  | .l1 => .l2
  | .l2 | .l3 => .l3

theorem Level.ne_down : ∀ {lvl : Level}, lvl ≠ .l3 → lvl ≠ lvl.down
  | .l1, _ | .l2, _ => nofun
  | .l3, h => absurd rfl h

/-- The descriptor type of a leaf entry of a level. -/
def Level.leaf : Level → ℕ
  | .l1 | .l2 => ttS1AttrBlock
  | .l3 => ttS1AttrPage

/-- One of the three granularities that `realloctb` and `mmumap` know. -/
def Gran.Known (gran : Gran) : Prop := gran = .g1G ∨ gran = .g2M ∨ gran = .g4K

theorem Gran.Known.size_pos {gran : Gran} (h : gran.Known) : 0 < gran.size := by
  rcases h with rfl | rfl | rfl <;> exact Nat.two_pow_pos _

namespace MMUTablel3

variable (t : MMUTablel3)

/-! ## The tables after a split -/

/-- The entry number `i` of the table that replaces `e`; it was `c` before. -/
def child (lvl : Level) (rel : ℕ) (e c : MMUTable) (i : ℕ) : MMUTable :=
  let c := if e.attr = ttS1AttrBlock then
      { c with attr := lvl.leaf, memAttr := e.memAttr, entryAddr := e.entryAddr + i * 2 ^ lvl.ln }
    else { c with attr := ttS1AttrFault }
  { c with relAddr := rel + 8 * i, type := lvl }

/-- `r` is one of the first `n` entries of level `lvl` from `base` on. -/
def InPage (lvl : Level) (base n : ℕ) (r : Ref) : Prop :=
  r.lvl = lvl ∧ base ≤ r.idx ∧ r.idx < base + n

instance (lvl : Level) (base n : ℕ) (r : Ref) : Decidable (InPage lvl base n r) :=
  inferInstanceAs (Decidable (_ ∧ _))

/-- The tables after `n` turns of the loop of `realloc_l2` or `realloc_l3`. -/
def place (up : Ref) (lvl : Level) (base n : ℕ) : MMUTablel3 where
  table r := if InPage lvl base n r then child lvl t.relAddr (t.table up) (t.table r) (r.idx - base)
    else t.table r
  relAddr := t.relAddr + 8 * n
  items := t.items ++ (List.range n).map fun i => ⟨lvl, base + i⟩

/-- The tables after `up` was replaced by a table of the level below. -/
def split (up : Ref) : MMUTablel3 :=
  let t' := t.place up up.lvl.down (512 * up.idx) 512
  { t' with
    table := Function.update t'.table up { t.table up with
      entryAddr := t.relAddr, entryIdx := 512 * up.idx, attr := ttS1AttrTable } }

/-- The tables after `realloc_l2` or `realloc_l3` for `up`: a table is left alone. -/
def ensureTable (up : Ref) : MMUTablel3 :=
  if (t.table up).attr = ttS1AttrFault ∨ (t.table up).attr = ttS1AttrBlock then t.split up else t

/-- The tables after `mmumap` wrote a leaf descriptor into `r`. -/
def setEntry (r : Ref) (entry memAttr : ℕ) : MMUTablel3 :=
  { t with table := Function.update t.table r { t.table r with
      entryAddr := entry, attr := r.lvl.leaf, memAttr := memAttr, use := true } }

theorem fetch_eq_ok {r : Ref} {e : MMUTable} (h : t.fetch r = .ok e) :
    r.idx < size r.lvl ∧ e = t.table r := by
  unfold fetch at h
  split_ifs at h with hr
  cases h
  exact ⟨hr, rfl⟩

theorem store_eq_ok {r : Ref} {e : MMUTable} {t' : MMUTablel3} (h : t.store r e = .ok t') :
    t' = { t with table := Function.update t.table r e } := by
  unfold store at h
  split_ifs at h
  cases h
  rfl

theorem reallocBody_place {up : Ref} {lvl : Level} {base n : ℕ} {t' : MMUTablel3}
    (hup : up.lvl ≠ lvl)
    (h : reallocBody up lvl base lvl.ln lvl.leaf (t.place up lvl base n) n = .ok t') :
    t' = t.place up lvl base (n + 1) := by
  obtain ⟨e, he, h⟩ := bind_eq_ok h
  obtain ⟨c, hc, h⟩ := bind_eq_ok h
  obtain ⟨u, hu, h⟩ := bind_eq_ok h
  obtain ⟨-, rfl⟩ := fetch_eq_ok _ he
  obtain ⟨-, rfl⟩ := fetch_eq_ok _ hc
  obtain rfl := store_eq_ok _ hu
  cases h
  have hup' : (t.place up lvl base n).table up = t.table up := if_neg fun h => hup h.1
  have hnew : (t.place up lvl base n).table ⟨lvl, base + n⟩ = t.table ⟨lvl, base + n⟩ :=
    if_neg fun h => by have := h.2.2; simp at this
  rw [hup', hnew]
  simp only [place, List.range_succ, List.map_append, List.append_assoc, List.map_cons,
    List.map_nil]
  congr 1
  · funext r
    by_cases hr : r = ⟨lvl, base + n⟩
    · subst hr
      have hin : InPage lvl base (n + 1) ⟨lvl, base + n⟩ := ⟨rfl, by simp, by simp⟩
      rw [Function.update_self, if_pos hin]
      simp only [child, Nat.add_sub_cancel_left]
    · rw [Function.update_of_ne hr]
      have hiff : InPage lvl base (n + 1) r ↔ InPage lvl base n r := by
        constructor
        · rintro ⟨h₁, h₂, h₃⟩
          refine ⟨h₁, h₂, lt_of_le_of_ne (by omega) fun h => hr ?_⟩
          cases r
          simp_all
        · rintro ⟨h₁, h₂, h₃⟩
          exact ⟨h₁, h₂, by omega⟩
      simp only [hiff]

theorem foldlM_reallocBody {up : Ref} {lvl : Level} {base : ℕ} (hup : up.lvl ≠ lvl) (n : ℕ)
    {t' : MMUTablel3}
    (h : (List.range n).foldlM (reallocBody up lvl base lvl.ln lvl.leaf) t = .ok t') :
    t' = t.place up lvl base n := by
  induction n generalizing t' with
  | zero =>
    cases h
    have hno : ∀ r, ¬ InPage lvl base 0 r := fun r hr => by have := hr.2; omega
    simp [place, hno]
  | succ n ih =>
    rw [List.range_succ, List.foldlM_append] at h
    obtain ⟨u, hu, h⟩ := bind_eq_ok h
    obtain rfl := ih hu
    rw [List.foldlM_cons] at h
    obtain ⟨v, hv, h⟩ := bind_eq_ok h
    cases h
    exact t.reallocBody_place hup hv

/-- **`realloc` splits a fault or block entry and leaves a table alone.** -/
theorem realloc_eq {up : Ref} {lvl : Level} {base : ℕ} (hlvl : lvl = up.lvl.down)
    (hup : up.lvl ≠ .l3) (hbase : base = 512 * up.idx) {t' : MMUTablel3}
    (h : t.realloc up lvl base lvl.ln lvl.leaf 512 = .ok t') : t' = t.ensureTable up := by
  have hne : up.lvl ≠ lvl := hlvl ▸ Level.ne_down hup
  unfold ensureTable
  unfold realloc at h
  obtain ⟨e, he, h⟩ := bind_eq_ok h
  obtain ⟨-, rfl⟩ := fetch_eq_ok _ he
  by_cases ha : (t.table up).attr = ttS1AttrFault ∨ (t.table up).attr = ttS1AttrBlock
  · rw [if_pos ha]
    rw [if_pos (by simpa [ttS1AttrFault] using ha)] at h
    obtain ⟨u, hu, h⟩ := bind_eq_ok h
    obtain rfl := t.foldlM_reallocBody hne 512 hu
    obtain ⟨c, hc, h⟩ := bind_eq_ok h
    obtain ⟨e, he, h⟩ := bind_eq_ok h
    obtain ⟨-, rfl⟩ := fetch_eq_ok _ hc
    obtain ⟨-, rfl⟩ := fetch_eq_ok _ he
    obtain rfl := store_eq_ok _ h
    have hup' : (t.place up lvl base 512).table up = t.table up := if_neg fun h => hne h.1
    have hfirst : ((t.place up lvl base 512).table ⟨lvl, base⟩).relAddr = t.relAddr := by
      have hin : InPage lvl base 512 ⟨lvl, base⟩ := ⟨rfl, by simp, by simp⟩
      simp only [place, if_pos hin, child, Nat.sub_self, Nat.mul_zero, Nat.add_zero]
    rw [hup', hfirst]
    subst hlvl hbase
    rfl
  · rw [if_neg ha]
    rw [if_neg (by simpa [ttS1AttrFault] using ha)] at h
    cases h
    rfl

theorem reallocL2_eq {start : ℕ} {t' : MMUTablel3}
    (h : t.reallocL2 (start >>> 30) (start >>> 21) 512 = .ok t') :
    t' = t.ensureTable ⟨.l1, start / 2 ^ 30⟩ := by
  rw [Nat.shiftRight_eq_div_pow, Nat.shiftRight_eq_div_pow] at h
  have hb : start / 2 ^ 21 - start / 2 ^ 21 % 512 = 512 * (start / 2 ^ 30) := by omega
  exact t.realloc_eq rfl (by simp) hb h

theorem reallocL3_eq {start : ℕ} (hs : 2 ^ 21 ∣ start) {t' : MMUTablel3}
    (h : t.reallocL3 (start >>> 21) (start >>> 12) 512 = .ok t') :
    t' = t.ensureTable ⟨.l2, start / 2 ^ 21⟩ := by
  rw [Nat.shiftRight_eq_div_pow, Nat.shiftRight_eq_div_pow] at h
  have hb : start / 2 ^ 12 = 512 * (start / 2 ^ 21) := by omega
  exact t.realloc_eq rfl (by simp) hb h

theorem putEntry_eq {r : Ref} {entry memAttr : ℕ} {t' : MMUTablel3}
    (h : t.putEntry r entry r.lvl.leaf memAttr = .ok t') :
    r.idx < size r.lvl ∧ t' = t.setEntry r entry memAttr := by
  obtain ⟨e, he, h⟩ := bind_eq_ok h
  obtain ⟨hr, rfl⟩ := fetch_eq_ok _ he
  exact ⟨hr, store_eq_ok _ h⟩

end MMUTablel3

/-! ## Turns of the loops -/

/-- The level whose entries a granularity writes. -/
def Gran.level : Gran → Level
  | .g1G => .l1
  | .g2M => .l2
  | .g4K | .other _ => .l3

theorem Gran.size_eq {gran : Gran} (h : 0 < gran.size) : gran.size = 2 ^ gran.level.ln := by
  cases gran with
  | other name => exact absurd h (lt_irrefl 0)
  | g1G | g2M | g4K => simp only [Gran.size, Gran.level, Level.ln]

theorem alignLx_eq (lvl : Level) (a : ℕ) : alignLx lvl a = a / 2 ^ lvl.ln * 2 ^ lvl.ln := by
  rw [alignLx, Nat.shiftLeft_eq, Nat.shiftRight_eq_div_pow]

namespace MMUTablel3

/-- The tables after one turn of the loop of `realloctb`. -/
def realloctbStep (t : MMUTablel3) (start : ℕ) : Gran → MMUTablel3
  | .g2M => t.ensureTable ⟨.l1, start / 2 ^ 30⟩
  | .g4K => (t.ensureTable ⟨.l1, start / 2 ^ 30⟩).ensureTable ⟨.l2, start / 2 ^ 21⟩
  | .g1G | .other _ => t

/-- How far one turn of the loop of `realloctb` moves. -/
def realloctbStride : Gran → ℕ
  | .g1G | .g2M => 2 ^ 30
  | .g4K => 2 ^ 21
  | .other _ => 0

theorem realloctbBody_eq {gran : Gran} {t : MMUTablel3} {start : ℕ} {s' : MMUTablel3 × ℕ}
    (hs : gran ≠ .g1G → realloctbStride gran ∣ start)
    (h : realloctbBody gran (t, start) = .ok s') :
    s' = (t.realloctbStep start gran, start + realloctbStride gran) := by
  cases gran with
  | g1G | other name =>
    cases h
    rfl
  | g2M =>
    obtain ⟨u, hu, h⟩ := bind_eq_ok h
    cases h
    rw [t.reallocL2_eq hu]
    rfl
  | g4K =>
    obtain ⟨u, hu, h⟩ := bind_eq_ok h
    obtain ⟨v, hv, h⟩ := bind_eq_ok h
    cases h
    obtain rfl := t.reallocL2_eq hu
    rw [reallocL3_eq _ (hs (by simp)) hv]
    rfl

theorem mmumapBody_eq {gran : Gran} (hg : 0 < gran.size) {attr start phy : ℕ} {t : MMUTablel3}
    {s' : MMUTablel3 × ℕ × ℕ} (h : mmumapBody gran attr (t, start, phy) = .ok s') :
    s' = (t.setEntry ⟨gran.level, start / gran.size⟩ (alignLx gran.level phy) attr,
      start + gran.size, phy + gran.size) := by
  cases gran with
  | other name => simp [Gran.size] at hg
  | g1G | g2M | g4K =>
    obtain ⟨u, hu, h⟩ := bind_eq_ok h
    cases h
    obtain ⟨-, rfl⟩ := putEntry_eq t hu
    rw [Nat.shiftRight_eq_div_pow]
    rfl

theorem realloctbStart_dvd {gran : Gran} (start : ℕ) (hg : gran ≠ .g1G) :
    realloctbStride gran ∣ realloctbStart start gran ∨ ∃ name, gran = .other name := by
  cases gran with
  | g1G => exact absurd rfl hg
  | g2M => exact .inl (Nat.dvd_sub_mod start)
  | g4K => exact .inl (Nat.dvd_sub_mod start)
  | other name => exact .inr ⟨name, rfl⟩

/-- The invariant rule for the loop of `realloctb`, on the tables and the counter. -/
theorem realloctb_induction {gran : Gran} (hg : 0 < gran.size) {I : MMUTablel3 → ℕ → Prop}
    {start stop : ℕ} (hI : ∀ t pos, I t pos → (gran ≠ .g1G → realloctbStride gran ∣ pos) →
      pos < stop → I (t.realloctbStep pos gran) (pos + realloctbStride gran))
    {t t' : MMUTablel3} (h₀ : I t (realloctbStart start gran))
    (h : t.realloctb start stop gran = .ok t') : ∃ pos, I t' pos ∧ stop ≤ pos := by
  obtain ⟨s', hw, hs'⟩ := bind_eq_ok h
  cases hs'
  have hdvd : gran ≠ .g1G → realloctbStride gran ∣ realloctbStart start gran := fun hne => by
    rcases realloctbStart_dvd start hne with h | ⟨name, rfl⟩
    · exact h
    · simp [Gran.size] at hg
  have := whileLt_induction (I := fun s => I s.1 s.2 ∧ (gran ≠ .g1G → realloctbStride gran ∣ s.2))
    (fun s s' hs hlt hb => by
      obtain ⟨u, pos⟩ := s
      rw [realloctbBody_eq hs.2 hb]
      exact ⟨hI u pos hs.1 hs.2 hlt, fun hne => Nat.dvd_add (hs.2 hne) dvd_rfl⟩) ⟨h₀, hdvd⟩ hw
  exact ⟨s'.2, this.1.1, this.2⟩

/-- The invariant rule for the loop of `mmumap`, on the tables and the counter. -/
theorem mmumap_induction {e : MapEntry} (hg : 0 < e.gran.size) {I : MMUTablel3 → ℕ → Prop}
    (hI : ∀ t n, I t n → e.virtBegin + n * e.gran.size < e.stop →
      I (t.setEntry ⟨e.gran.level, (e.virtBegin + n * e.gran.size) / e.gran.size⟩
        (alignLx e.gran.level (e.phyBegin + n * e.gran.size)) e.attr) (n + 1))
    {t t' : MMUTablel3} (h₀ : I t 0)
    {s : MMUTablel3 × ℕ × ℕ} (h : whileLt .outOfFuel e.stop (fun s => s.2.1)
      (mmumapBody e.gran e.attr) e.stop (t, e.virtBegin, e.phyBegin) = .ok s) (hs : s.1 = t') :
    ∃ n, I t' n ∧ e.stop ≤ e.virtBegin + n * e.gran.size := by
  subst hs
  have := whileLt_induction (I := fun s => ∃ n, I s.1 n ∧ s.2.1 = e.virtBegin + n * e.gran.size ∧
    s.2.2 = e.phyBegin + n * e.gran.size)
    (fun s s' hs hlt hb => by
      obtain ⟨u, start, phy⟩ := s
      obtain ⟨n, hn, rfl, rfl⟩ := hs
      rw [mmumapBody_eq hg hb]
      exact ⟨n + 1, hI u n hn hlt, by ring, by ring⟩) ⟨0, h₀, by simp, by simp⟩ h
  obtain ⟨⟨n, hn, hpos, -⟩, hstop⟩ := this
  exact ⟨n, hn, hpos ▸ hstop⟩

theorem mmumap_preserves {P : MMUTablel3 → Prop} {e : MapEntry} (hg : 0 < e.gran.size)
    (hsplit : ∀ t r, P t → r.lvl ≠ .l3 →
      (t.table r).attr = ttS1AttrFault ∨ (t.table r).attr = ttS1AttrBlock → P (t.split r))
    (hset : ∀ t r phy, P t → r.lvl = e.gran.level → phy < e.phyEnd →
      P (t.setEntry r (alignLx r.lvl phy) e.attr))
    {t t' : MMUTablel3} (h₀ : P t) (h : t.mmumap e = .ok t') : P t' := by
  obtain ⟨u, hu, h⟩ := bind_eq_ok h
  obtain ⟨s, hs, h⟩ := bind_eq_ok h
  cases h
  have hens : ∀ t r, P t → r.lvl ≠ .l3 → P (t.ensureTable r) := fun t r ht hr => by
    unfold ensureTable
    split_ifs with ha
    · exact hsplit t r ht hr ha
    · exact ht
  have hstep : ∀ t pos, P t → P (t.realloctbStep pos e.gran) := fun t pos ht => by
    cases e.gran with
    | g1G | other name => exact ht
    | g2M => exact hens _ _ ht (by simp)
    | g4K => exact hens _ _ (hens _ _ ht (by simp)) (by simp)
  obtain ⟨_, hP, -⟩ := realloctb_induction hg (I := fun t _ => P t)
    (fun t pos ht _ _ => hstep t pos ht) h₀ hu
  obtain ⟨_, hP', -⟩ := mmumap_induction hg (I := fun t _ => P t) (fun t n ht hlt =>
    hset t _ _ ht rfl (by unfold MapEntry.stop at hlt; omega)) hP hs rfl
  exact hP'

/-! ## Termination -/

/-- The only exception is an index outside the lists. -/
def OnlyIndexError {α : Type} (x : Except Err α) : Prop := ∀ e, x = .error e → e = .indexError

namespace OnlyIndexError

theorem ok {α : Type} (a : α) : OnlyIndexError (.ok a) := nofun

theorem bind {α β : Type} {x : Except Err α} {f : α → Except Err β} (hx : OnlyIndexError x)
    (hf : ∀ a, OnlyIndexError (f a)) : OnlyIndexError (x.bind f) := by
  intro e h
  obtain h | ⟨a, -, h⟩ := bind_eq_error h
  · exact hx e h
  · exact hf a e h

theorem fetch (t : MMUTablel3) (r : Ref) : OnlyIndexError (t.fetch r) := by
  intro e h
  unfold MMUTablel3.fetch at h
  split_ifs at h
  cases h
  rfl

theorem store (t : MMUTablel3) (r : Ref) (c : MMUTable) : OnlyIndexError (t.store r c) := by
  intro e h
  unfold MMUTablel3.store at h
  split_ifs at h
  cases h
  rfl

theorem foldlM {α β : Type} {f : β → α → Except Err β} (hf : ∀ b a, OnlyIndexError (f b a))
    (l : List α) (b : β) : OnlyIndexError (l.foldlM f b) := by
  induction l generalizing b with
  | nil => exact ok b
  | cons a l ih => exact (hf b a).bind ih

theorem reallocBody (up : Ref) (lvl : Level) (base shift childAttr : ℕ) (t : MMUTablel3) (i : ℕ) :
    OnlyIndexError (reallocBody up lvl base shift childAttr t i) :=
  (fetch _ _).bind fun _ => (fetch _ _).bind fun _ => (store _ _ _).bind fun _ => ok _

theorem realloc (t : MMUTablel3) (up : Ref) (lvl : Level) (base shift childAttr blocksize : ℕ) :
    OnlyIndexError (t.realloc up lvl base shift childAttr blocksize) := by
  refine (fetch _ _).bind fun e => ?_
  split
  · refine (foldlM (reallocBody up lvl base shift childAttr) _ _).bind fun t => ?_
    exact (fetch _ _).bind fun _ => (fetch _ _).bind fun _ => store _ _ _
  · exact ok t

theorem whileLt {σ : Type} {stop : ℕ} {pos : σ → ℕ} {body : σ → Except Err σ}
    (hpos : ∀ s s', body s = .ok s' → pos s < pos s') (hbody : ∀ s, OnlyIndexError (body s))
    (s : σ) : OnlyIndexError (whileLt .outOfFuel stop pos body stop s) := by
  intro e h
  exact whileLt_error (E := (· = Err.indexError)) hpos (fun s e => hbody s e)
    (Nat.le_add_left _ _) h

theorem realloctbBody {gran : Gran} (hg : gran.Known) (s : MMUTablel3 × ℕ) :
    OnlyIndexError (realloctbBody gran s) := by
  rcases hg with rfl | rfl | rfl
  · exact ok _
  · exact (realloc _ _ _ _ _ _ _).bind fun _ => ok _
  · exact (realloc _ _ _ _ _ _ _).bind fun _ => (realloc _ _ _ _ _ _ _).bind fun _ => ok _

theorem realloctb (t : MMUTablel3) (start stop : ℕ) {gran : Gran} (hg : gran.Known) :
    OnlyIndexError (t.realloctb start stop gran) := by
  refine (whileLt (fun s s' hs => ?_) (realloctbBody hg) _).bind fun _ => ok _
  rcases hg with rfl | rfl | rfl
  · cases hs
    exact Nat.lt_add_of_pos_right (Nat.two_pow_pos _)
  · obtain ⟨u, -, hs⟩ := bind_eq_ok hs
    cases hs
    exact Nat.lt_add_of_pos_right (Nat.two_pow_pos _)
  · obtain ⟨u, -, hs⟩ := bind_eq_ok hs
    obtain ⟨v, -, hs⟩ := bind_eq_ok hs
    cases hs
    exact Nat.lt_add_of_pos_right (Nat.two_pow_pos _)

theorem mmumapBody {gran : Gran} (hg : gran.Known) (attr : ℕ) (s : MMUTablel3 × ℕ × ℕ) :
    OnlyIndexError (mmumapBody gran attr s) := by
  have hput : ∀ (t : MMUTablel3) r entry attr memAttr,
      OnlyIndexError (t.putEntry r entry attr memAttr) := fun _ _ _ _ _ =>
    (fetch _ _).bind fun _ => store _ _ _
  rcases hg with rfl | rfl | rfl <;> exact (hput _ _ _ _ _).bind fun _ => ok _

theorem mmumap (t : MMUTablel3) {e : MapEntry} (hg : e.gran.Known) :
    OnlyIndexError (t.mmumap e) := by
  refine (realloctb _ _ _ hg).bind fun t =>
    (whileLt (fun s s' hs => ?_) (mmumapBody hg _) _).bind fun _ => ok _
  rcases hg with hg | hg | hg <;> rw [hg] at hs <;> obtain ⟨u, -, hs⟩ := bind_eq_ok hs <;>
    cases hs <;> exact Nat.lt_add_of_pos_right (Nat.two_pow_pos _)

end OnlyIndexError

theorem mmumapAll_onlyIndexError {es : List MapEntry} (hes : ∀ e ∈ es, e.gran.Known)
    (t : MMUTablel3) : OnlyIndexError (t.mmumapAll es) := by
  induction es generalizing t with
  | nil => exact .ok t
  | cons e es ih =>
    exact (OnlyIndexError.mmumap t (hes e List.mem_cons_self)).bind
      fun t => ih (fun e' he' => hes e' (List.mem_cons_of_mem _ he')) t

theorem mmumap_eq_ok {e : MapEntry} (he : e.gran.Known) {t : MMUTablel3}
    (hidx : t.mmumap e ≠ .error .indexError) : ∃ t', t.mmumap e = .ok t' := by
  cases h : t.mmumap e with
  | error err => exact absurd (OnlyIndexError.mmumap t he err h ▸ h) hidx
  | ok t' => exact ⟨t', rfl⟩

theorem mmumapAll_eq_ok {es : List MapEntry} (hes : ∀ e ∈ es, e.gran.Known) {t : MMUTablel3}
    (hidx : t.mmumapAll es ≠ .error .indexError) : ∃ t', t.mmumapAll es = .ok t' := by
  cases h : t.mmumapAll es with
  | error e => exact absurd (mmumapAll_onlyIndexError hes t e h ▸ h) hidx
  | ok t' => exact ⟨t', rfl⟩

/-! ## The layout -/

/-- The 512 items from offset `e.entryAddr` of the image on are the entries `base, base + 1, …` of
level `lvl`. -/
structure PageAt (items : List Ref) (e : MMUTable) (lvl : Level) (base : ℕ) : Prop where
  idx : e.entryIdx = base
  dvd : 4096 ∣ e.entryAddr
  le : e.entryAddr + 4096 ≤ 8 * items.length
  get : ∀ i < 512, items[e.entryAddr / 8 + i]? = some ⟨lvl, base + i⟩

/-- **The layout of the image.** An object that occurs in `items` stands at its own `rel_addr`, and
a table entry points to a page that holds the entries of its own virtual region, in order. -/
structure Layout (t : MMUTablel3) : Prop where
  rel : t.relAddr = 8 * t.items.length
  page : 512 ∣ t.items.length
  self : ∀ r ∈ t.items, ∃ p, (t.table r).relAddr = 8 * p ∧ t.items[p]? = some r
  tab : ∀ r, r.lvl ≠ .l3 → (t.table r).attr = ttS1AttrTable →
    PageAt t.items (t.table r) r.lvl.down (512 * r.idx)

theorem getElem?_append_of_some {α : Type*} {xs : List α} {i : ℕ} {x : α} (ys : List α)
    (h : xs[i]? = some x) : (xs ++ ys)[i]? = some x := by
  rw [List.getElem?_append_left (List.getElem?_eq_some_iff.mp h).1, h]

theorem PageAt.append {items : List Ref} {e : MMUTable} {lvl : Level} {base : ℕ}
    (h : PageAt items e lvl base) (new : List Ref) : PageAt (items ++ new) e lvl base where
  idx := h.idx
  dvd := h.dvd
  le := by rw [List.length_append]; have := h.le; omega
  get i hi := getElem?_append_of_some new (h.get i hi)

theorem table_split_self (t : MMUTablel3) (up : Ref) : (t.split up).table up =
    { t.table up with
      entryAddr := t.relAddr, entryIdx := 512 * up.idx, attr := ttS1AttrTable } :=
  Function.update_self _ _ _

theorem table_split_page (t : MMUTablel3) {up r : Ref} (hne : r ≠ up)
    (hr : InPage up.lvl.down (512 * up.idx) 512 r) : (t.split up).table r =
    child up.lvl.down t.relAddr (t.table up) (t.table r) (r.idx - 512 * up.idx) :=
  (Function.update_of_ne hne _ _).trans (if_pos hr)

theorem table_split_other (t : MMUTablel3) {up r : Ref} (hne : r ≠ up)
    (hr : ¬ InPage up.lvl.down (512 * up.idx) 512 r) : (t.split up).table r = t.table r :=
  (Function.update_of_ne hne _ _).trans (if_neg hr)

theorem table_setEntry_self (t : MMUTablel3) (r : Ref) (entry memAttr : ℕ) :
    (t.setEntry r entry memAttr).table r = { t.table r with
      entryAddr := entry, attr := r.lvl.leaf, memAttr := memAttr, use := true } :=
  Function.update_self _ _ _

theorem table_setEntry_ne (t : MMUTablel3) {r r' : Ref} (h : r' ≠ r) (entry memAttr : ℕ) :
    (t.setEntry r entry memAttr).table r' = t.table r' :=
  Function.update_of_ne h _ _

theorem forall_split (t : MMUTablel3) (up : Ref) (Q : Ref → MMUTable → Prop)
    (hself : Q up { t.table up with
      entryAddr := t.relAddr, entryIdx := 512 * up.idx, attr := ttS1AttrTable })
    (hpage : ∀ r, InPage up.lvl.down (512 * up.idx) 512 r →
      Q r (child up.lvl.down t.relAddr (t.table up) (t.table r) (r.idx - 512 * up.idx)))
    (hother : ∀ r, Q r (t.table r)) (r : Ref) : Q r ((t.split up).table r) := by
  by_cases hne : r = up
  · rw [hne, table_split_self]
    exact hself
  · by_cases hp : InPage up.lvl.down (512 * up.idx) 512 r
    · rw [table_split_page t hne hp]
      exact hpage r hp
    · rw [table_split_other t hne hp]
      exact hother r

theorem forall_setEntry (t : MMUTablel3) (r : Ref) (entry memAttr : ℕ) (Q : Ref → MMUTable → Prop)
    (hself : Q r { t.table r with
      entryAddr := entry, attr := r.lvl.leaf, memAttr := memAttr, use := true })
    (hother : ∀ r', Q r' (t.table r')) (r' : Ref) :
    Q r' ((t.setEntry r entry memAttr).table r') := by
  by_cases hne : r' = r
  · rw [hne, table_setEntry_self]
    exact hself
  · rw [table_setEntry_ne t hne]
    exact hother r'

theorem items_split (t : MMUTablel3) (up : Ref) : (t.split up).items =
    t.items ++ (List.range 512).map fun i => ⟨up.lvl.down, 512 * up.idx + i⟩ := rfl

theorem not_inPage_self {up : Ref} (hup : up.lvl ≠ .l3) (base n : ℕ) :
    ¬ InPage up.lvl.down base n up := fun h => Level.ne_down hup h.1

theorem mem_page {lvl : Level} {base : ℕ} {r : Ref} :
    r ∈ (List.range 512).map (fun i => (⟨lvl, base + i⟩ : Ref)) ↔ InPage lvl base 512 r := by
  rw [List.mem_map]
  constructor
  · rintro ⟨i, hi, rfl⟩
    rw [List.mem_range] at hi
    exact ⟨rfl, Nat.le_add_right _ _, Nat.add_lt_add_left hi _⟩
  · rintro ⟨rfl, h₁, h₂⟩
    exact ⟨r.idx - base, List.mem_range.mpr (by omega), by rw [Nat.add_sub_cancel' h₁]⟩

theorem getElem?_items_split (t : MMUTablel3) (up : Ref) {i : ℕ} (hi : i < 512) :
    (t.split up).items[t.items.length + i]? = some ⟨up.lvl.down, 512 * up.idx + i⟩ := by
  rw [items_split, List.getElem?_append_right (by omega), Nat.add_sub_cancel_left,
    List.getElem?_map, List.getElem?_range hi, Option.map_some]

@[simp] theorem length_items_split (t : MMUTablel3) (up : Ref) :
    (t.split up).items.length = t.items.length + 512 := by
  simp [items_split]

theorem child_l2_ne_table (rel i : ℕ) (e c : MMUTable) :
    (child .l2 rel e c i).attr ≠ ttS1AttrTable := by
  unfold child
  split_ifs
  · exact (by decide : ttS1AttrBlock ≠ ttS1AttrTable)
  · exact (by decide : ttS1AttrFault ≠ ttS1AttrTable)

/-- The new table of an entry stands in the page behind the old items. -/
theorem Layout.pageAt_split {t : MMUTablel3} (ht : Layout t) (up : Ref) :
    PageAt (t.split up).items ((t.split up).table up) up.lvl.down (512 * up.idx) := by
  obtain ⟨q, hq⟩ := ht.page
  have hrel := ht.rel
  rw [table_split_self]
  refine ⟨rfl, ⟨q, ?_⟩, ?_, fun i hi => ?_⟩
  · show t.relAddr = 4096 * q
    omega
  · show t.relAddr + 4096 ≤ 8 * (t.split up).items.length
    rw [length_items_split]
    omega
  · show (t.split up).items[t.relAddr / 8 + i]? = _
    rw [hrel, Nat.mul_div_cancel_left _ (by omega), getElem?_items_split t up hi]

/-- **Splitting an entry keeps the layout.** -/
theorem Layout.split {t : MMUTablel3} (ht : Layout t) {up : Ref} (hup : up.lvl ≠ .l3) :
    Layout (t.split up) where
  rel := by
    rw [length_items_split]
    have := ht.rel
    show t.relAddr + 8 * 512 = _
    omega
  page := by rw [length_items_split]; exact (Nat.dvd_add_right ht.page).mpr dvd_rfl
  self := by
    intro r hr
    by_cases hp : InPage up.lvl.down (512 * up.idx) 512 r
    · have hne : r ≠ up := by
        rintro rfl
        exact not_inPage_self hup _ _ hp
      obtain ⟨h₁, h₂, h₃⟩ := id hp
      refine ⟨t.items.length + (r.idx - 512 * up.idx), ?_, ?_⟩
      · rw [table_split_page t hne hp]
        show t.relAddr + 8 * (r.idx - 512 * up.idx) = _
        rw [ht.rel]
        ring
      · rw [getElem?_items_split t up (by omega), Nat.add_sub_cancel' h₂, ← h₁]
    · have hold : r ∈ t.items := by
        rw [items_split, List.mem_append] at hr
        exact hr.resolve_right fun h => hp (mem_page.mp h)
      obtain ⟨p, h₁, h₂⟩ := ht.self r hold
      refine ⟨p, ?_, getElem?_append_of_some _ h₂⟩
      by_cases hne : r = up
      · rw [hne, table_split_self, ← h₁, hne]
      · rw [table_split_other t hne hp, h₁]
  tab := by
    intro r hr ha
    by_cases hne : r = up
    · subst hne
      exact ht.pageAt_split r
    · by_cases hp : InPage up.lvl.down (512 * up.idx) 512 r
      · exfalso
        have hl : r.lvl = .l2 := by
          have := hp.1
          cases hl : up.lvl <;> simp_all [Level.down]
        rw [table_split_page t hne hp, ← hp.1, hl] at ha
        exact child_l2_ne_table _ _ _ _ ha
      · rw [table_split_other t hne hp] at ha ⊢
        exact (ht.tab r hr ha).append _

/-- **Writing a leaf entry keeps the layout.** -/
theorem Layout.setEntry {t : MMUTablel3} (ht : Layout t) (r : Ref) (entry memAttr : ℕ) :
    Layout (t.setEntry r entry memAttr) where
  rel := ht.rel
  page := ht.page
  self := by
    intro r' hr'
    obtain ⟨p, h₁, h₂⟩ := ht.self r' hr'
    refine ⟨p, ?_, h₂⟩
    by_cases hne : r' = r
    · subst hne
      rw [table_setEntry_self, ← h₁]
    · rw [table_setEntry_ne t hne, h₁]
  tab := by
    intro r' hr' ha
    have hne : r' ≠ r := by
      rintro rfl
      rw [table_setEntry_self] at ha
      cases hl : r'.lvl <;> simp_all [Level.leaf, ttS1AttrBlock, ttS1AttrTable]
    rw [table_setEntry_ne t hne] at ha ⊢
    exact ht.tab r' hr' ha

theorem layout_init : Layout init where
  rel := by simp [init]
  page := by simp [init, entryNum]
  self := by
    intro r hr
    simp only [init, List.mem_map, List.mem_range] at hr
    obtain ⟨i, hi, rfl⟩ := hr
    refine ⟨i, by simp [init, hi], ?_⟩
    simp [init, hi]
  tab := by
    intro r _ ha
    simp [init, ttS1AttrTable] at ha

theorem mmumapAll_preserves {P : MMUTablel3 → Prop} {Q : MapEntry → Prop}
    (hstep : ∀ e t t', Q e → P t → t.mmumap e = .ok t' → P t') :
    ∀ {es : List MapEntry} {t t' : MMUTablel3}, (∀ e ∈ es, Q e) → P t →
      t.mmumapAll es = .ok t' → P t'
  | [], t, t', _, h₀, h => by
    cases h
    exact h₀
  | e :: es, t, t'', hQ, h₀, h => by
    obtain ⟨t', h₁, h₂⟩ := bind_eq_ok h
    exact mmumapAll_preserves hstep (fun e' he' => hQ e' (List.mem_cons_of_mem _ he'))
      (hstep e t t' (hQ e List.mem_cons_self) h₀ h₁) h₂

/-- Two table entries of the levels 1 and 2 never point to overlapping pages. -/
def PagesDisjoint (t : MMUTablel3) : Prop :=
  ∀ r r' : Ref, r.lvl ≠ .l3 → r'.lvl ≠ .l3 → (t.table r).attr = ttS1AttrTable →
    (t.table r').attr = ttS1AttrTable → r ≠ r' →
    (t.table r).entryAddr + 4096 ≤ (t.table r').entryAddr ∨
      (t.table r').entryAddr + 4096 ≤ (t.table r).entryAddr

theorem Layout.pagesDisjoint {t : MMUTablel3} (ht : Layout t) : PagesDisjoint t := by
  intro r r' hr hr' ha ha' hne
  have h := ht.tab r hr ha
  have h' := ht.tab r' hr' ha'
  obtain ⟨q, hq⟩ := h.dvd
  obtain ⟨q', hq'⟩ := h'.dvd
  have hqq : q ≠ q' := by
    rintro rfl
    have h₁ := h.get 0 (by omega)
    rw [hq, ← hq', h'.get 0 (by omega)] at h₁
    have h₂ := congrArg Ref.lvl (Option.some.inj h₁)
    have h₃ := congrArg Ref.idx (Option.some.inj h₁)
    apply hne
    cases r with | mk l i =>
    cases r' with | mk l' i' =>
    cases l <;> cases l' <;> simp_all [Level.down]
  omega

end MMUTablel3

open MMUTablel3 in
/-- **The layout of the image after any calls of `mmumap`** whose indices keep to the lists,
whatever the order and the overlaps of the mapped ranges. -/
theorem layout_mmumapAll (es : List MapEntry) (hes : ∀ e ∈ es, e.gran.Known)
    (hidx : init.mmumapAll es ≠ .error .indexError) :
    ∃ t, init.mmumapAll es = .ok t ∧ Layout t ∧ PagesDisjoint t := by
  obtain ⟨t, h⟩ := mmumapAll_eq_ok hes hidx
  have hl : Layout t := mmumapAll_preserves (fun e t t' hQ ht h => mmumap_preserves hQ.size_pos
    (fun t r ht hr _ => ht.split hr) (fun t r phy ht _ _ => ht.setEntry _ _ _) ht h)
    hes layout_init h
  exact ⟨t, h, hl, hl.pagesDisjoint⟩

/-- A block of one gigabyte with one of its pages mapped elsewhere. -/
def sampleMap : List MapEntry :=
  [⟨0, 2 ^ 30, 0, .g1G, genElxbinAttr false .device⟩,
    ⟨0x5000, 0x6000, 0x3000, .g4K, genElxbinAttr false .cacheable⟩]

open MMUTablel3 in
theorem sampleMap_ok : ∃ t, init.mmumapAll sampleMap = .ok t ∧ t.relAddr = 12288 := by
  have h : (init.mmumapAll sampleMap).toOption.map (fun t => t.relAddr) = some 12288 := by
    decide +kernel
  generalize init.mmumapAll sampleMap = r at h
  cases r with
  | error e => cases h
  | ok t => exact ⟨t, rfl, Option.some.inj h⟩

open MMUTablel3 in
theorem layout_sampleMap : ∃ t, init.mmumapAll sampleMap = .ok t ∧ Layout t ∧ PagesDisjoint t := by
  obtain ⟨t, ht, -⟩ := sampleMap_ok
  exact layout_mmumapAll sampleMap (by simp [sampleMap, Gran.Known]) (by rw [ht]; nofun)

end LddExample.Mmu
