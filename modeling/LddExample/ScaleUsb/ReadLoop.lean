import LddExample.ScaleUsb.RxStream
import Mathlib.Algebra.Ring.Nat

/-!
# Termination of the copy loop of `scale_read`

The loop runs alone, on the buffers that are completed when it starts. The `i`-th call of
`copy_to_user` can copy `mapped i` bytes; it copies less when less is asked for.

* `leftIn`, `copied`: the data as one stream, of which each call copies something from the buffer at
  the position that the calls before it have reached.
* `Rx.readLoop`: the loop for a number of steps.
* `Rx.EndsFrom`: it ends after finitely many of them.
* `Rx.exists_copy`, `Rx.exists_loop`: one turn of the loop, up to its call and behind it.
* **`ends_iff_copied`**: the loop ends exactly when finitely many of its calls copy all that the
  caller asks for or all that is completed.
-/

namespace LddExample.ScaleUsb

/-! ## The stream -/

/-- The bytes from position `p` on that are left in its buffer. -/
def leftIn : List ℕ → ℕ → ℕ
  | [], _ => 0
  | n :: ns, p => if p < n then n - p else leftIn ns (p - n)

/-- The bytes that the first calls of `copy_to_user` copy. A call at position `p` is asked for
`left p` bytes, or for what is left of `len` if this is less. -/
def copied (left : ℕ → ℕ) (len : ℕ) (mapped : ℕ → ℕ) : ℕ → ℕ
  | 0 => 0
  | n + 1 =>
    let p := copied left len mapped n
    p + min (mapped n) (min (len - p) (left p))

section Stream

variable {sizes : List ℕ} {left : ℕ → ℕ} {len : ℕ} {mapped : ℕ → ℕ}

theorem leftIn_zero_cons (sizes : List ℕ) : leftIn (0 :: sizes) = leftIn sizes := by
  funext p
  rw [leftIn, if_neg (Nat.not_lt_zero p), Nat.sub_zero]

theorem leftIn_add {b c : ℕ} (hc : c ≤ b) (sizes : List ℕ) (p : ℕ) :
    leftIn (b :: sizes) (c + p) = leftIn ((b - c) :: sizes) p := by
  rw [leftIn, leftIn]
  split_ifs
  · omega
  · omega
  · omega
  · congr 1
    omega

theorem leftIn_pos {p : ℕ} (h : p < sizes.sum) : 0 < leftIn sizes p := by
  induction sizes generalizing p with
  | nil => cases h
  | cons n ns ih =>
    rw [List.sum_cons] at h
    rw [leftIn]
    split_ifs
    · omega
    · exact ih (by omega)

theorem add_leftIn_le {p : ℕ} (h : p ≤ sizes.sum) : p + leftIn sizes p ≤ sizes.sum := by
  induction sizes generalizing p with
  | nil => exact h
  | cons n ns ih =>
    rw [List.sum_cons] at h ⊢
    rw [leftIn]
    split_ifs
    · omega
    · have := ih (p := p - n) (by omega)
      omega

/-- The first call, and the others on what it leaves. -/
theorem copied_succ {left' : ℕ → ℕ} {c : ℕ} (hc : c = min (mapped 0) (min len (left 0)))
    (hleft : ∀ p, left (c + p) = left' p) (n : ℕ) :
    copied left len mapped (n + 1) =
      c + copied left' (len - c) (fun i => mapped (i + 1)) n := by
  induction n with
  | zero => simp [copied, hc]
  | succ n ih =>
    rw [copied, ih, copied, hleft, Nat.sub_sub]
    omega

theorem copied_le (n : ℕ) : copied (leftIn sizes) len mapped n ≤ min len sizes.sum := by
  induction n with
  | zero => exact Nat.zero_le _
  | succ n ih =>
    have := add_leftIn_le (Nat.le_trans ih (Nat.min_le_right _ _))
    rw [copied]
    omega

theorem min_le_copied (hmapped : ∀ i, mapped i ≠ 0) (n : ℕ) :
    min n (min len sizes.sum) ≤ copied (leftIn sizes) len mapped n := by
  induction n with
  | zero => exact Nat.le_of_eq (Nat.zero_min _)
  | succ n ih =>
    have hle : copied (leftIn sizes) len mapped n ≤ min len sizes.sum := copied_le n
    have hn := hmapped n
    rw [copied]
    by_cases hp : copied (leftIn sizes) len mapped n < min len sizes.sum
    · have := leftIn_pos (Nat.lt_of_lt_of_le hp (Nat.min_le_right _ _))
      omega
    · omega

end Stream

namespace Rx

/-- The bytes that the next `copy_to_user` is asked for. -/
def readSize (l : ReadCall) : ℕ :=
  if l.len > l.currentRx.bytes then l.currentRx.bytes else l.len

/-- The loop for `n` steps at most, with `i` calls of `copy_to_user` behind it. It ends at its
condition or by a reset. -/
def readLoop (mapped : ℕ → ℕ) : ℕ → ℕ → Rx → Option Rx
  | 0, _, _ => none
  | n + 1, i, s =>
    match s.pc with
    | .loop l => if s.More l then readLoop mapped n i (s.readNext l) else some s
    | .copy l =>
      readLoop mapped n (i + 1) (s.readCopy l (readSize l - min (readSize l) (mapped i)))
    | .copied l size => readLoop mapped n i (s.readCopied l size)
    | .idle => some s
    | .setup _ | .queued _ _ | .take _ _ | .sleeping _ | .oops _ => none

/-- The loop ends. -/
def EndsFrom (mapped : ℕ → ℕ) (i : ℕ) (s : Rx) : Prop :=
  ∃ n s', readLoop mapped n i s = some s'

/-- The sizes of the buffers from the current one on. -/
def sizes (s : Rx) (l : ReadCall) : List ℕ :=
  l.currentRx.bytes :: s.rxBuffers.map fun r => (s.data r).length

variable {mapped : ℕ → ℕ} {i n : ℕ} {s s' : Rx} {l : ReadCall}

theorem readLoop_mono (h : readLoop mapped n i s = some s') :
    readLoop mapped (n + 1) i s = some s' := by
  induction n generalizing i s with
  | zero => cases h
  | succ n ih =>
    rw [readLoop] at h ⊢
    cases hpc : s.pc with simp only [hpc] at h ⊢
    | loop l =>
      split_ifs at h ⊢
      · exact ih h
      · exact h
    | copy l => exact ih h
    | copied l size => exact ih h
    | idle => exact h
    | setup | queued | take | sleeping | oops => cases h

theorem readLoop_add (h : readLoop mapped n i s = some s') (k : ℕ) :
    readLoop mapped (n + k) i s = some s' := by
  induction k with
  | zero => exact h
  | succ k ih => exact readLoop_mono ih

/-- A loop that is `k` steps behind the state `t` takes these steps first. -/
theorem lt_of_readLoop {j k : ℕ} {t : Rx}
    (hstep : ∀ n, readLoop mapped (n + k) i s = readLoop mapped n j t)
    (h : readLoop mapped n i s = some s') : k < n ∧ readLoop mapped (n - k) j t = some s' := by
  have hlt : k < n := by
    by_contra hle
    have hk := readLoop_add h (k - n)
    rw [Nat.add_sub_of_le (Nat.not_lt.1 hle), ← Nat.zero_add k, hstep] at hk
    cases hk
  refine ⟨hlt, ?_⟩
  rw [← hstep, Nat.sub_add_cancel (Nat.le_of_lt hlt)]
  exact h

/-! ## One turn -/

theorem readLoop_of_done (hpc : s.pc = .loop l) (h : ¬s.More l) (n : ℕ) :
    readLoop mapped (n + 1) i s = some s := by
  rw [readLoop, hpc]
  exact if_neg h

theorem readLoop_of_more (hpc : s.pc = .loop l) (h : s.More l) (n : ℕ) :
    readLoop mapped (n + 1) i s = readLoop mapped n i (s.readNext l) := by
  rw [readLoop, hpc]
  exact if_pos h

/-- The same is left to copy. -/
structure SameRest (s : Rx) (l : ReadCall) (t : Rx) (k : ReadCall) : Prop where
  at_ : k.currentRx.At t.data
  len : k.len = l.len
  reset : t.resetScale = s.resetScale
  left : leftIn (t.sizes k) = leftIn (s.sizes l)
  sum : (t.sizes k).sum = (s.sizes l).sum

theorem SameRest.trans {t u : Rx} {k m : ReadCall} (h : SameRest s l t k) (h' : SameRest t k u m) :
    SameRest s l u m :=
  ⟨h'.at_, h'.len.trans h.len, h'.reset.trans h.reset, h'.left.trans h.left, h'.sum.trans h.sum⟩

theorem readNext_of_current (hat : l.currentRx.At s.data) (hb : l.currentRx.bytes ≠ 0) :
    (s.readNext l).pc = .copy l ∧ SameRest s l (s.readNext l) l := by
  rw [readNext, if_neg hb]
  exact ⟨rfl, hat, rfl, rfl, rfl, rfl⟩

section Next

variable {r : ℕ} {rest : List ℕ}

theorem readNext_of_data (hb : l.currentRx.bytes = 0) (hbufs : s.rxBuffers = r :: rest)
    (hdata : (s.data r).length ≠ 0) :
    ∃ k, (s.readNext l).pc = .copy k ∧ k.currentRx.bytes ≠ 0 ∧ SameRest s l (s.readNext l) k := by
  have hnext : s.readNext l = { s with
      rxBuffers := rest
      pc := .copy { l with currentRx := ⟨some r, (s.data r).length, some (r, 0)⟩ } } := by
    rw [readNext, if_pos hb, hbufs]
    exact if_pos hdata
  rw [hnext]
  refine ⟨_, rfl, hdata, .inr ⟨r, 0, rfl, rfl, hdata, Nat.zero_add _⟩, rfl, rfl, ?_, ?_⟩
  · rw [sizes, sizes, hb, hbufs, leftIn_zero_cons]
    rfl
  · simp [sizes, hb, hbufs]

theorem readNext_of_empty (hat : l.currentRx.At s.data) (hb : l.currentRx.bytes = 0)
    (hbufs : s.rxBuffers = r :: rest) (hdata : (s.data r).length = 0) :
    (s.readNext l).pc = .loop l ∧ (s.readNext l).rxBuffers = rest ∧
      SameRest s l (s.readNext l) l := by
  have hnext : s.readNext l =
      { s with rxBuffers := rest, rxReqs := r :: s.rxReqs, pc := .loop l } := by
    rw [readNext, if_pos hb, hbufs]
    exact if_neg (not_not.2 hdata)
  rw [hnext]
  refine ⟨rfl, rfl, hat, rfl, rfl, ?_, ?_⟩
  · rw [sizes, sizes, hb, hbufs, leftIn_zero_cons, leftIn_zero_cons, List.map_cons, hdata,
      leftIn_zero_cons]
  · simp [sizes, hb, hbufs, hdata]

end Next

/-- **The loop ends without a call when nothing is left to copy, and comes to its call when
something is.** -/
theorem exists_copy (hpc : s.pc = .loop l) (hat : l.currentRx.At s.data) :
    ((l.len = 0 ∨ (s.sizes l).sum = 0) ∧ EndsFrom mapped i s) ∨
    ∃ t k steps, t.pc = .copy k ∧ k.currentRx.bytes ≠ 0 ∧ l.len ≠ 0 ∧ SameRest s l t k ∧
      ∀ n, readLoop mapped (n + steps) i s = readLoop mapped n i t := by
  obtain ⟨bufs, hbufs⟩ : ∃ bufs, s.rxBuffers = bufs := ⟨_, rfl⟩
  by_cases hmore : s.More l
  · have hfirst : ∀ n, readLoop mapped (n + 1) i s = readLoop mapped n i (s.readNext l) :=
      readLoop_of_more hpc hmore
    by_cases hb : l.currentRx.bytes = 0
    · induction bufs generalizing s with
      | nil => exact absurd hbufs (hmore.1.resolve_left (not_not.2 hb))
      | cons r rest ih =>
        by_cases hdata : (s.data r).length = 0
        · obtain ⟨hpc', hrest, hsame⟩ := readNext_of_empty hat hb hbufs hdata
          by_cases hmore' : (s.readNext l).More l
          · obtain ⟨hnil, n, s', hend⟩ | ⟨t, k, steps, hk, hkb, hlen, hkeep, hsteps⟩ :=
              ih hpc' hsame.at_ hrest hmore' (readLoop_of_more hpc' hmore')
            · rw [hsame.sum] at hnil
              exact .inl ⟨hnil, n + 1, s', by rw [hfirst, hend]⟩
            · refine .inr ⟨t, k, steps + 1, hk, hkb, hlen, hsame.trans hkeep, fun n => ?_⟩
              rw [← Nat.add_assoc, hfirst, hsteps]
          · refine .inl ⟨.inr ?_, 2, s.readNext l, ?_⟩
            · have hnil : (s.readNext l).rxBuffers = [] := by
                by_contra hne
                exact hmore' ⟨.inr hne, hmore.2⟩
              rw [← hsame.sum, sizes, hb, hnil]
              rfl
            · rw [hfirst, readLoop_of_done hpc' hmore']
        · obtain ⟨k, hk, hkb, hsame⟩ := readNext_of_data hb hbufs hdata
          exact .inr ⟨_, k, 1, hk, hkb, hmore.2, hsame, hfirst⟩
    · obtain ⟨hk, hsame⟩ := readNext_of_current hat hb
      exact .inr ⟨_, l, 1, hk, hb, hmore.2, hsame, hfirst⟩
  · refine .inl ⟨?_, 1, s, readLoop_of_done hpc hmore 0⟩
    rw [More, not_and_or, not_or, not_not, not_not, not_not] at hmore
    refine hmore.symm.imp_right fun h => ?_
    rw [sizes, h.1, h.2]
    rfl

theorem exists_copied (hpc : s.pc = .copy l) (hat : l.currentRx.At s.data)
    (hb : l.currentRx.bytes ≠ 0) {c : ℕ}
    (hc : c = min (mapped i) (min l.len (leftIn (s.sizes l) 0))) :
    c ≤ l.currentRx.bytes ∧ ∃ m : ReadCall, m.currentRx = l.currentRx ∧ m.len = l.len - c ∧
      ∀ n, readLoop mapped (n + 2) i s =
        readLoop mapped n (i + 1) (({ s with pc := .copied m c } : Rx).readCopied m c) := by
  have hfirst : leftIn (s.sizes l) 0 = l.currentRx.bytes := by
    rw [sizes, leftIn, if_pos (Nat.pos_of_ne_zero hb), Nat.sub_zero]
  have hcopy : readSize l - (readSize l - min (readSize l) (mapped i)) = c := by
    rw [hc, hfirst, readSize]
    split_ifs <;> omega
  obtain ⟨r, off, -, hbuf, -⟩ := hat.exists_buf hb
  obtain ⟨m, hm, hmrx, hmlen⟩ : ∃ m : ReadCall,
      s.readCopy l (readSize l - min (readSize l) (mapped i)) = { s with pc := .copied m c } ∧
        m.currentRx = l.currentRx ∧ m.len = l.len - c := by
    rw [readCopy, hbuf]
    dsimp only
    rw [← readSize, hcopy]
    exact ⟨_, rfl, rfl, rfl⟩
  refine ⟨by omega, m, hmrx, hmlen, fun n => ?_⟩
  rw [readLoop, hpc]
  dsimp only
  rw [hm, readLoop]

/-- **After the call the loop goes on with as many bytes less.** -/
theorem exists_loop (hpc : s.pc = .copy l) (hat : l.currentRx.At s.data)
    (hb : l.currentRx.bytes ≠ 0) (hreset : s.resetScale = false) {c : ℕ}
    (hc : c = min (mapped i) (min l.len (leftIn (s.sizes l) 0))) :
    ∃ t k, t.pc = .loop k ∧ k.currentRx.At t.data ∧ t.resetScale = false ∧ k.len = l.len - c ∧
      (∀ p, leftIn (s.sizes l) (c + p) = leftIn (t.sizes k) p) ∧
      c + (t.sizes k).sum = (s.sizes l).sum ∧
      ∀ n, readLoop mapped (n + 2) i s = readLoop mapped n (i + 1) t := by
  obtain ⟨hle, m, hmrx, hmlen, hstep⟩ := exists_copied hpc hat hb hc
  obtain ⟨r, -, hreq, -, -⟩ := hat.exists_buf hb
  have hnot : ¬({ s with pc := .copied m c } : Rx).resetScale = true := by
    rw [hreset]
    decide
  by_cases hlt : c < l.currentRx.bytes
  · refine ⟨{ s with pc := .loop { m with currentRx := l.currentRx.advance c } },
      { m with currentRx := l.currentRx.advance c }, rfl, hat.advance hlt, hreset, hmlen,
      leftIn_add hle _, ?_, fun n => ?_⟩
    · simp only [sizes, CurrentRx.advance, List.sum_cons]
      omega
    · rw [hstep, readCopied, if_neg hnot, hmrx]
      exact congrArg _ (if_pos hlt)
  · refine ⟨{ s with rxReqs := r :: s.rxReqs, pc := .loop { m with currentRx := .null } },
      { m with currentRx := .null }, rfl, .inl rfl, hreset, hmlen, fun p => ?_, ?_, fun n => ?_⟩
    · rw [sizes, leftIn_add hle, Nat.sub_eq_zero_of_le (Nat.not_lt.1 hlt)]
      rfl
    · simp only [sizes, CurrentRx.null, List.sum_cons]
      omega
    · rw [hstep, readCopied, if_neg hnot, hmrx, if_neg hlt, hreq]

theorem endsFrom_of_reset (hpc : s.pc = .loop l) (hat : l.currentRx.At s.data)
    (hreset : s.resetScale = true) : EndsFrom mapped i s := by
  obtain ⟨-, hend⟩ | ⟨t, k, steps, hk, hkb, -, hsame, hsteps⟩ := exists_copy hpc hat
  · exact hend
  · obtain ⟨-, m, hmrx, -, hstep⟩ := exists_copied hk hsame.at_ hkb rfl
    obtain ⟨r, -, hreq, -, -⟩ := hsame.at_.exists_buf hkb
    refine ⟨1 + 2 + steps, { t with rxReqs := r :: t.rxReqs }.ret m.ubuf (-eagain), ?_⟩
    rw [hsteps, hstep, readCopied, if_pos (hsame.reset.trans hreset), hmrx, hreq]
    rfl

/-! ## Whole calls -/

theorem endsFrom_of_copied (m : ℕ) : ∀ {i : ℕ} {s : Rx} {l : ReadCall}, s.pc = .loop l →
    l.currentRx.At s.data →
    copied (leftIn (s.sizes l)) l.len (fun j => mapped (i + j)) m =
      min l.len (s.sizes l).sum → EndsFrom mapped i s := by
  induction m with
  | zero =>
    intro i s l hpc hat hall
    obtain ⟨-, hend⟩ | ⟨t, k, -, -, hkb, hlen, hsame, -⟩ := exists_copy hpc hat
    · exact hend
    · have hsum := hsame.sum
      rw [sizes, List.sum_cons] at hsum
      rw [copied] at hall
      omega
  | succ m ih =>
    intro i s l hpc hat hall
    by_cases hreset : s.resetScale = true
    · exact endsFrom_of_reset hpc hat hreset
    · rw [Bool.not_eq_true] at hreset
      obtain ⟨-, hend⟩ | ⟨t, k, steps, hk, hkb, -, hsame, hsteps⟩ := exists_copy hpc hat
      · exact hend
      · obtain ⟨u, m', hu, huat, -, hulen, huleft, husum, husteps⟩ :=
          exists_loop hk hsame.at_ hkb (hsame.reset.trans hreset) rfl
        rw [hsame.left] at hulen huleft husum
        rw [hsame.len] at hulen huleft husum
        rw [copied_succ (by rw [Nat.add_zero]) huleft] at hall
        rw [hsame.sum] at husum
        obtain ⟨n, s', hend⟩ := ih (i := i + 1) hu huat (by
          rw [hulen]
          simp only [Nat.add_assoc, Nat.add_comm 1]
          omega)
        exact ⟨n + 2 + steps, s', by rw [hsteps, husteps, hend]⟩

theorem copied_of_readLoop (N : ℕ) : ∀ {i : ℕ} {s : Rx} {l : ReadCall}, s.pc = .loop l →
    l.currentRx.At s.data → s.resetScale = false → readLoop mapped N i s = some s' →
    ∃ m, copied (leftIn (s.sizes l)) l.len (fun j => mapped (i + j)) m =
      min l.len (s.sizes l).sum := by
  induction N using Nat.strongRecOn with
  | _ N ih =>
    intro i s l hpc hat hreset hend
    obtain ⟨hnil, -⟩ | ⟨t, k, steps, hk, hkb, -, hsame, hsteps⟩ := exists_copy hpc hat
    · refine ⟨0, ?_⟩
      rw [copied]
      omega
    · obtain ⟨u, m', hu, huat, hureset, hulen, huleft, husum, husteps⟩ :=
        exists_loop hk hsame.at_ hkb (hsame.reset.trans hreset) rfl
      rw [hsame.left] at hulen huleft husum
      rw [hsame.len] at hulen huleft husum
      rw [hsame.sum] at husum
      obtain ⟨-, hend⟩ := lt_of_readLoop hsteps hend
      obtain ⟨hlt, hend⟩ := lt_of_readLoop husteps hend
      obtain ⟨m, hall⟩ := ih _ (by omega) hu huat hureset hend
      refine ⟨m + 1, ?_⟩
      rw [copied_succ (by rw [Nat.add_zero]) huleft]
      simp only [hulen, Nat.add_assoc, Nat.add_comm 1] at hall
      omega

theorem endsFrom_of_mapped (hmapped : ∀ j, mapped j ≠ 0) (hpc : s.pc = .loop l)
    (hat : l.currentRx.At s.data) : EndsFrom mapped i s := by
  refine endsFrom_of_copied (min l.len (s.sizes l).sum) hpc hat (Nat.le_antisymm (copied_le _) ?_)
  calc min l.len (s.sizes l).sum
      = min (min l.len (s.sizes l).sum) (min l.len (s.sizes l).sum) := (Nat.min_self _).symm
    _ ≤ copied (leftIn (s.sizes l)) l.len (fun j => mapped (i + j)) (min l.len (s.sizes l).sum) :=
      min_le_copied (fun j => hmapped (i + j)) _

/-- A read of one byte from a buffer of one byte. -/
def oneByte : Rx :=
  { bind true with
    rxReqs := [1, 2, 3, 4, 5, 6, 7, 8, 9]
    rxBuffers := [0]
    data := fun _ => [65]
    pc := .loop ⟨1, 0, .null, []⟩ }

end Rx

/-- **The loop ends exactly when finitely many of its calls copy all that the caller asks for or all
that is completed**, or when it finds a reset. -/
theorem ends_iff_copied (mapped : ℕ → ℕ) (s : Rx) (l : ReadCall) (hpc : s.pc = .loop l)
    (hat : l.currentRx.At s.data) :
    Rx.EndsFrom mapped 0 s ↔
      s.resetScale = true ∨ ∃ n, copied (leftIn (s.sizes l)) l.len mapped n =
        min l.len (s.sizes l).sum := by
  have hshift : (fun j => mapped (0 + j)) = mapped := by
    funext j
    rw [Nat.zero_add]
  constructor
  · rintro ⟨n, s', hend⟩
    by_cases hreset : s.resetScale = true
    · exact .inl hreset
    · rw [Bool.not_eq_true] at hreset
      exact .inr (hshift ▸ Rx.copied_of_readLoop n hpc hat hreset hend)
  · rintro (hreset | ⟨n, hall⟩)
    · exact Rx.endsFrom_of_reset hpc hat hreset
    · exact Rx.endsFrom_of_copied n hpc hat (hshift.symm ▸ hall)

theorem ends_oneByte :
    Rx.EndsFrom (fun i => i) 0 Rx.oneByte :=
  (ends_iff_copied (fun i => i) Rx.oneByte ⟨1, 0, .null, []⟩ rfl (.inl rfl)).2 (.inr ⟨2, rfl⟩)

/-- **With a page that stays unmapped a read of one byte does not end.** -/
theorem not_endsFrom_unmapped : ¬Rx.EndsFrom (fun _ => 0) 0 Rx.oneByte := by
  rintro ⟨n, s', hend⟩
  obtain ⟨m, hall⟩ := Rx.copied_of_readLoop n (l := ⟨1, 0, .null, []⟩) rfl (.inl rfl) rfl hend
  have hzero : ∀ m, copied (leftIn (Rx.oneByte.sizes ⟨1, 0, .null, []⟩)) 1 (fun _ => 0) m = 0 := by
    intro m
    induction m with
    | zero => rfl
    | succ m ih => rw [copied, ih, Nat.zero_min]
  rw [hzero] at hall
  cases hall

end LddExample.ScaleUsb
