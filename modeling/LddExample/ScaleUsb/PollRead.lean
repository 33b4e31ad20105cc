import LddExample.ScaleUsb.ReadLoop

/-!
# Poll and read

`scale_poll` and `scale_read` look for data by separate tests of the saved position and of
`rx_buffers`.

* `Sequential`: reads, polls and soft resets follow one another, and requests complete while `lock`
  is free. A soft reset may also fall into a read that sleeps or copies.
* `Rx.Ready`: no buffer on `rx_buffers` is empty, and a saved position has bytes behind it.
* `Rx.scalePoll`, `Rx.scaleRead`: the calls, run alone.
* `Rx.Copies`: the copy loop will deliver something, or has done so.
* **`poll_agrees_with_read`**: in every state between the calls, `scale_poll` reports `POLLIN`
  exactly when a read does not return `-EAGAIN`.
-/

namespace LddExample.ScaleUsb

open List

/-- The steps of a sequence of reads, polls, soft resets and completions. -/
def Sequential (s : Rx) : RxAct → Prop
  | .complete _ _ _ => s.pc.locked = false
  | .read _ _ | .poll | .queue _ | .listAdd | .setupDone | .take | .wake _ | .next | .copyToUser _
  | .copied | .finish => s.reset.quiet = true
  | .disable | .disabled | .resetCurrent | .clearBytes | .clearBuf | .setReset | .drain
  | .enable _ | .enableTest _ => True

instance (s : Rx) : ∀ a, Decidable (Sequential s a)
  | .complete _ _ _ => inferInstanceAs (Decidable (s.pc.locked = false))
  | .read _ _ | .poll | .queue _ | .listAdd | .setupDone | .take | .wake _ | .next | .copyToUser _
  | .copied | .finish => inferInstanceAs (Decidable (s.reset.quiet = true))
  | .disable | .disabled | .resetCurrent | .clearBytes | .clearBuf | .setReset | .drain
  | .enable _ | .enableTest _ => isTrue trivial

/-- The position in the device; `scale_soft_reset` clears it field by field. -/
def Rx.Saved (s : Rx) : Prop :=
  match s.reset with
  | .idle | .disabling | .disabled | .enablingTest _ | .nullEp => s.currentRx.At s.data
  | .clearBytes => s.currentRx.req = none
  | .clearBuf => s.currentRx.req = none ∧ s.currentRx.bytes = 0
  | .setReset | .draining | .enabling | .oops => s.currentRx = .null

/-- **The invariant that both tests rest on.** -/
structure Rx.Ready (s : Rx) : Prop extends s.Inv where
  full : ∀ r ∈ s.rxBuffers, s.data r ≠ []
  saved : s.Saved
  running : s.pc.Good s.data

namespace Rx

variable {s s' : Rx} {a : RxAct}

theorem ready_bind (en : Bool) : (Rx.bind en).Ready where
  toInv := inv_bind en
  full := fun _ hr => nomatch hr
  saved := .inl rfl
  running := trivial

theorem noRace_of_sequential (hC : Sequential s a) : NoRace s a := by
  cases a with
  | complete => exact noRace_of_unlocked hC
  | take | finish =>
    intro hreset
    have hquiet : s.reset.quiet = true := hC
    rw [hreset] at hquiet
    cases hquiet
  | _ => trivial

theorem saved_iff_at (hreset : s.reset.quiet = true) : s.Saved ↔ s.currentRx.At s.data := by
  rw [Saved]
  cases h : s.reset with
  | idle | enablingTest | nullEp => exact Iff.rfl
  | disabling | disabled | clearBytes | clearBuf | setReset | draining | enabling | oops =>
    simp [h, ResetPc.quiet] at hreset

theorem saved_of_at (hreset : s.reset.quiet = true) (h : s.currentRx.At s.data) : s.Saved :=
  (saved_iff_at hreset).2 h

theorem Ready.congr (h : s.Ready) (hinv : s'.Inv) (hbufs : s'.rxBuffers = s.rxBuffers)
    (hdata : s'.data = s.data) (hcur : s'.currentRx = s.currentRx) (hreset : s'.reset = s.reset)
    (hpc : s'.pc.Good s.data) : s'.Ready where
  toInv := hinv
  full := by rw [hbufs, hdata]; exact h.full
  saved := by
    have := h.saved
    rw [Saved, hcur, hdata, hreset]
    exact this
  running := by rw [hdata]; exact hpc

theorem Ready.readTake (h : s.Ready) {len : ℕ} {nonblock : Bool}
    (hreset : s.reset.quiet = true) (hinv : (s.readTake len nonblock).Inv) :
    (s.readTake len nonblock).Ready := by
  have hgood := good_readTake ((saved_iff_at hreset).1 h.saved) len nonblock
  unfold Rx.readTake at hinv hgood ⊢
  dsimp only at hinv hgood ⊢
  split_ifs at hinv hgood ⊢
  · exact ⟨hinv, h.full, saved_of_at hreset (.inl rfl), hgood⟩
  · exact ⟨hinv, h.full, saved_of_at hreset (.inl rfl), hgood⟩
  · exact ⟨hinv, h.full, saved_of_at hreset (.inl rfl), hgood⟩

theorem Ready.readNext (h : s.Ready) {l : ReadCall} (hpc : s.pc = .loop l)
    (hreset : s.reset.quiet = true) (hinv : (s.readNext l).Inv) : (s.readNext l).Ready := by
  have hgood := h.running
  rw [hpc] at hgood
  have hnext := good_readNext hgood hpc
  have hat := (saved_iff_at hreset).1 h.saved
  unfold Rx.readNext at hinv hnext ⊢
  split_ifs at hinv hnext ⊢ with hb
  · split at hinv
    · exact h
    next r rest hbufs =>
      have hrest : ∀ q ∈ rest, s.data q ≠ [] := by
        intro q hq
        exact h.full q (by rw [hbufs]; exact mem_cons_of_mem _ hq)
      rw [hbufs] at hnext
      dsimp only at hinv hnext ⊢
      split_ifs at hinv hnext ⊢ with hlen
      · exact ⟨hinv, hrest, saved_of_at hreset hat, hnext⟩
      · exact ⟨hinv, hrest, saved_of_at hreset hat, hnext⟩
  · exact h.congr hinv rfl rfl rfl rfl hnext

theorem Ready.readCopy (h : s.Ready) {l : ReadCall} (hpc : s.pc = .copy l) (left : ℕ)
    (hinv : (s.readCopy l left).Inv) : (s.readCopy l left).Ready := by
  have hgood := h.running
  rw [hpc] at hgood
  obtain ⟨hgood, hb⟩ := hgood
  have hcopy := good_readCopy hgood hb left
  obtain ⟨r, off, -, hbuf, -⟩ := hgood.at_.exists_buf hb
  unfold Rx.readCopy at hinv hcopy ⊢
  rw [hbuf] at hinv hcopy ⊢
  exact h.congr hinv rfl rfl rfl rfl hcopy

theorem Ready.readCopied (h : s.Ready) {l : ReadCall} {size : ℕ} (hpc : s.pc = .copied l size)
    (hinv : (s.readCopied l size).Inv) : (s.readCopied l size).Ready := by
  have hgood := h.running
  rw [hpc] at hgood
  obtain ⟨hgood, hb, -⟩ := hgood
  have hcopied := good_readCopied hgood hb size
  obtain ⟨r, off, hreq, -, -⟩ := hgood.at_.exists_buf hb
  unfold Rx.readCopied at hinv hcopied ⊢
  rw [hreq] at hinv hcopied ⊢
  split_ifs at hinv hcopied ⊢
  · exact h.congr hinv rfl rfl rfl rfl hcopied
  · exact h.congr hinv rfl rfl rfl rfl hcopied
  · exact h.congr hinv rfl rfl rfl rfl hcopied

theorem Ready.full_complete (h : s.Ready) {r : ℕ} (hr : r ∈ s.queued)
    (hj : s.pc.justQueued ≠ some r) (status : ℤ) (payload : List UInt8) :
    ∀ q ∈ (s.complete r status payload).rxBuffers, (s.complete r status payload).data q ≠ [] := by
  obtain ⟨-, -, hbuf, -, -⟩ := h.count_of_queued hr hj
  rw [count_eq_zero] at hbuf
  have hold : ∀ q ∈ s.rxBuffers, (s.complete r status payload).data q ≠ [] := by
    intro q hq
    rw [h.data_complete hr hj status payload (.inl hq)]
    exact h.full q hq
  simp only [Rx.complete, rxComplete, listDelInit, erase_of_not_mem hbuf] at hold ⊢
  split_ifs at hold ⊢ with hstatus hlen
  · intro q hq
    obtain hq | hq := mem_append.1 hq
    · exact hold q hq
    · rw [mem_singleton.1 hq]
      change (if r = r then payload else s.data r) ≠ []
      rw [if_pos rfl]
      exact length_pos_iff.1 hlen
  · exact hold
  · exact hold

theorem Ready.complete (h : s.Ready) {r : ℕ} (hr : r ∈ s.queued) (hj : s.pc.justQueued ≠ some r)
    (status : ℤ) (payload : List UInt8) (hinv : (s.complete r status payload).Inv) :
    (s.complete r status payload).Ready := by
  have hdata := fun q => h.data_complete hr hj status payload (q := q)
  refine ⟨hinv, h.full_complete hr hj status payload, ?_, ?_⟩
  · have hsaved := h.saved
    rw [Saved] at hsaved ⊢
    rw [complete_reset, complete_currentRx]
    cases hreset : s.reset with
    | idle | disabling | disabled | enablingTest | nullEp =>
      rw [hreset] at hsaved
      exact CurrentRx.At.congr hsaved fun q hq => hdata q (.inr (.inl hq))
    | clearBytes | clearBuf | setReset | draining | enabling | oops =>
      rw [hreset] at hsaved
      exact hsaved
  · rw [complete_pc]
    exact h.running.congr fun q hq => hdata q (.inr (.inr hq))

theorem Ready.resetCurrent (h : s.Ready) (hinv : s.resetCurrent.Inv) : s.resetCurrent.Ready := by
  unfold Rx.resetCurrent at hinv ⊢
  split at hinv
  next hreq => exact ⟨hinv, h.full, hreq, h.running⟩
  next hreq => exact ⟨hinv, h.full, rfl, h.running⟩

/-- **A step keeps the invariant.** -/
theorem Ready.step (h : s.Ready) (hC : Sequential s a) (hs : RxTrans s a s') : s'.Ready := by
  have hrace := noRace_of_sequential hC
  have hinv : s'.Inv := h.toInv.step hrace hs
  have hgood := h.running
  have hsaved := h.saved
  cases hs with
  | readZero hpc | read hpc | poll hpc | queueOk hpc | listAdd hpc =>
    exact h.congr hinv rfl rfl rfl rfl trivial
  | @queueErr c hpc | @setupDone c hpc => cases c <;> exact h.congr hinv rfl rfl rfl rfl trivial
  | take => exact h.readTake hC hinv
  | wake hpc =>
    rw [hpc] at hgood
    exact h.congr hinv rfl rfl rfl rfl hgood
  | next hpc => exact h.readNext hpc hC hinv
  | copyToUser hpc => exact h.readCopy hpc _ hinv
  | copied hpc => exact h.readCopied hpc hinv
  | finish hpc =>
    rw [hpc] at hgood
    exact ⟨hinv, h.full, saved_of_at hC hgood.at_, trivial⟩
  | complete hr => exact h.complete hr hrace _ _ hinv
  | disable hreset =>
    have hquiet : s.reset.quiet = true := by
      obtain hr | hr := hreset <;> rw [hr] <;> rfl
    exact ⟨hinv, h.full, (saved_iff_at hquiet).1 hsaved, hgood⟩
  | disabled hreset | setReset hreset | enableNull hreset | enableTest hreset =>
    rw [Saved, hreset] at hsaved
    exact ⟨hinv, h.full, hsaved, hgood⟩
  | enable hreset =>
    rw [Saved, hreset] at hsaved
    exact ⟨hinv, h.full, .inl hsaved, hgood⟩
  | resetCurrent hreset => exact h.resetCurrent hinv
  | clearBytes hreset =>
    rw [Saved, hreset] at hsaved
    exact ⟨hinv, h.full, ⟨hsaved, rfl⟩, hgood⟩
  | clearBuf hreset =>
    rw [Saved, hreset] at hsaved
    refine ⟨hinv, h.full, ?_, hgood⟩
    change CurrentRx.mk s.currentRx.req s.currentRx.bytes none = .null
    rw [hsaved.1, hsaved.2]
    rfl
  | drain hreset =>
    rw [Saved, hreset] at hsaved
    rw [resetDrain, if_pos (h.active_nil (by rw [hreset]; rfl))] at hinv ⊢
    exact ⟨hinv, h.full, hsaved, hgood⟩

/-! ## The calls, run alone -/

/-- `setup_rx_reqs`, run alone: the controller accepts `accepts` requests and refuses the next one.
A disabled endpoint refuses all. -/
def setupRxReqs : ℕ → Rx → Rx
  | 0, s => s
  | n + 1, s =>
    match s.rxReqs with
    | [] => s
    | r :: rest =>
      if s.enabled then
        setupRxReqs n { s with
          rxReqs := rest
          queued := r :: s.queued
          rxReqsActive := r :: s.rxReqsActive }
      else s

/-- `POLLIN | POLLRDNORM` -/
def pollIn : BitVec 32 := 0x0041

/-- `POLLOUT | POLLWRNORM` -/
def pollOut : BitVec 32 := 0x0104

/-- `scale_poll`, with the list `tx_reqs` of the transmit side. -/
def scalePoll (s : Rx) (accepts : ℕ) (txReqs : List ℕ) : Rx × BitVec 32 :=
  let s := s.setupRxReqs accepts
  let status : BitVec 32 := 0
  let status := if txReqs ≠ [] then status ||| pollOut else status
  (s, if s.currentRx.bytes ≠ 0 ∨ s.rxBuffers ≠ [] then status ||| pollIn else status)

/-- `scale_read` with `O_NONBLOCK`, run alone with copies that succeed, for `fuel` steps of the copy
loop. -/
def scaleRead (s : Rx) (accepts len fuel : ℕ) : Option Rx :=
  if len = 0 then some (s.ret [] (-einval))
  else
    let s := ({ s with resetScale := false }.setupRxReqs accepts).readTake len true
    match s.pc with
    | .loop _ =>
      (readLoop (fun _ => len) fuel 0 s).bind fun s =>
        match s.pc with
        | .loop l => some (s.readReturn l)
        | _ => some s
    | _ => some s

/-- The fields that `setup_rx_reqs` leaves alone. -/
structure SameReads (s s' : Rx) : Prop where
  rxBuffers : s'.rxBuffers = s.rxBuffers
  currentRx : s'.currentRx = s.currentRx
  data : s'.data = s.data
  resetScale : s'.resetScale = s.resetScale
  pc : s'.pc = s.pc
  returned : s'.returned = s.returned

theorem sameReads_setupRxReqs (n : ℕ) (s : Rx) : SameReads s (s.setupRxReqs n) := by
  induction n generalizing s with
  | zero => exact ⟨rfl, rfl, rfl, rfl, rfl, rfl⟩
  | succ n ih =>
    unfold setupRxReqs
    split
    · exact ⟨rfl, rfl, rfl, rfl, rfl, rfl⟩
    next r rest hreqs =>
      split_ifs
      · obtain ⟨hbufs, hcur, hdata, hreset, hpc, hret⟩ := ih { s with
          rxReqs := rest
          queued := r :: s.queued
          rxReqsActive := r :: s.rxReqsActive }
        exact ⟨hbufs, hcur, hdata, hreset, hpc, hret⟩
      · exact ⟨rfl, rfl, rfl, rfl, rfl, rfl⟩

/-- `setup_rx_reqs` ends, when the list is empty or the next request is refused. -/
theorem exec_setupReturn (s : Rx) (c : Call) :
    ∃ acts, Lts.exec rxStep { s with pc := .setup c } acts = some (s.setupReturn c) := by
  cases hreqs : s.rxReqs with
  | nil => exact ⟨[.setupDone], by cases c <;> simp [Lts.exec, rxStep, setupReturn, hreqs]⟩
  | cons r rest =>
    exact ⟨[.queue true], by cases c <;> simp [Lts.exec, rxStep, setupReturn, hreqs]⟩

theorem exec_setupRxReqs (n : ℕ) (s : Rx) (c : Call) :
    ∃ acts, Lts.exec rxStep { s with pc := .setup c } acts =
      some ((s.setupRxReqs n).setupReturn c) := by
  induction n generalizing s with
  | zero => exact exec_setupReturn s c
  | succ n ih =>
    unfold setupRxReqs
    split
    next => exact exec_setupReturn s c
    next r rest hreqs =>
      split_ifs with hen
      · obtain ⟨acts, hacts⟩ := ih { s with
          rxReqs := rest
          queued := r :: s.queued
          rxReqsActive := r :: s.rxReqsActive }
        refine ⟨.queue false :: .listAdd :: acts, ?_⟩
        rw [← hacts]
        simp [Lts.exec, rxStep, hreqs, hen]
      · exact exec_setupReturn s c

/-! ## The copy loop delivers something -/

/-- The read has delivered something, or is about to. -/
def Copies (s : Rx) : Prop :=
  s.resetScale = false ∧
  match s.pc with
  | .loop l => l.currentRx.At s.data ∧ (0 < l.bytesCopied ∨ l.len ≠ 0 ∧
    (l.currentRx.bytes ≠ 0 ∨ ∃ r rest, s.rxBuffers = r :: rest ∧ s.data r ≠ []))
  | .copy l => l.currentRx.At s.data ∧ l.currentRx.bytes ≠ 0 ∧ (0 < l.bytesCopied ∨ l.len ≠ 0)
  | .copied l _ => l.currentRx.At s.data ∧ l.currentRx.bytes ≠ 0 ∧ 0 < l.bytesCopied
  | _ => False

variable {mapped : ℕ → ℕ} {i : ℕ} {l : ReadCall}

theorem Copies.readNext (h : s.Copies) (hpc : s.pc = .loop l) (hmore : s.More l) :
    (s.readNext l).Copies := by
  obtain ⟨hreset, h⟩ := h
  rw [hpc] at h
  obtain ⟨hat, h⟩ := h
  rw [Rx.readNext]
  split
  next hb =>
    split
    next hnil => exact absurd hnil (hmore.1.resolve_left (not_not.2 hb))
    next r rest hbufs =>
      dsimp only
      split
      next hlen =>
        exact ⟨hreset, .inr ⟨r, 0, rfl, rfl, hlen, Nat.zero_add _⟩, hlen,
          h.imp_right fun hl => hl.1⟩
      next hlen =>
        refine ⟨hreset, hat, .inl (h.resolve_right ?_)⟩
        rintro ⟨-, hne | ⟨r', rest', hcons, hne⟩⟩
        · exact hne hb
        · rw [hbufs] at hcons
          obtain ⟨rfl, -⟩ := cons.inj hcons
          exact hlen fun h0 => hne (eq_nil_of_length_eq_zero h0)
  next hb => exact ⟨hreset, hat, hb, h.imp_right fun hl => hl.1⟩

theorem Copies.readCopy (hmapped : ∀ i, mapped i ≠ 0) (h : s.Copies) (hpc : s.pc = .copy l) :
    (s.readCopy l (readSize l - min (readSize l) (mapped i))).Copies := by
  obtain ⟨hreset, h⟩ := h
  rw [hpc] at h
  obtain ⟨hat, hb, h⟩ := h
  obtain ⟨r, off, -, hbuf, -⟩ := hat.exists_buf hb
  rw [Rx.readCopy, hbuf]
  refine ⟨hreset, hat, hb, ?_⟩
  change 0 < l.bytesCopied + (readSize l - (readSize l - min (readSize l) (mapped i)))
  have hmap := hmapped i
  rw [readSize]
  split_ifs <;> omega

theorem Copies.readCopied {size : ℕ} (h : s.Copies) (hpc : s.pc = .copied l size) :
    (s.readCopied l size).Copies := by
  obtain ⟨hreset, h⟩ := h
  rw [hpc] at h
  obtain ⟨hat, hb, hpos⟩ := h
  obtain ⟨r, off, hreq, -, -⟩ := hat.exists_buf hb
  rw [Rx.readCopied, if_neg (by rw [hreset]; decide), hreq]
  split
  next hlt => exact ⟨hreset, hat.advance hlt, .inl hpos⟩
  next hlt => exact ⟨hreset, .inl rfl, .inl hpos⟩

theorem returned_readNext (s : Rx) (l : ReadCall) : (s.readNext l).returned = s.returned := by
  rw [Rx.readNext]
  split
  · split
    · rfl
    · dsimp only
      split <;> rfl
  · rfl

theorem returned_readCopy (s : Rx) (l : ReadCall) (left : ℕ) :
    (s.readCopy l left).returned = s.returned := by
  rw [Rx.readCopy]
  split <;> rfl

/-- Only a reset lets the loop return. -/
theorem returned_readCopied (hreset : s.resetScale = false) (l : ReadCall) (size : ℕ) :
    (s.readCopied l size).returned = s.returned := by
  rw [Rx.readCopied, if_neg (by rw [hreset]; decide)]
  split
  · rfl
  · split <;> rfl

/-- **The copy loop ends with something delivered.** -/
theorem Copies.readLoop (hmapped : ∀ i, mapped i ≠ 0) {n : ℕ} (h : s.Copies)
    (hloop : readLoop mapped n i s = some s') :
    ∃ l, s'.pc = .loop l ∧ 0 < l.bytesCopied ∧ s'.returned = s.returned := by
  induction n generalizing i s with
  | zero => cases hloop
  | succ n ih =>
    rw [Rx.readLoop] at hloop
    cases hpc : s.pc with simp only [hpc] at hloop
    | loop l =>
      split_ifs at hloop with hmore
      · rw [← returned_readNext s l]
        exact ih (h.readNext hpc hmore) hloop
      · cases hloop
        obtain ⟨-, h⟩ := h
        rw [hpc] at h
        refine ⟨l, hpc, h.2.resolve_right ?_, rfl⟩
        rintro ⟨hlen, hdata⟩
        refine hmore ⟨hdata.imp_right ?_, hlen⟩
        rintro ⟨r, rest, hcons, -⟩ hnil
        rw [hnil] at hcons
        cases hcons
    | copy l =>
      rw [← returned_readCopy s l]
      exact ih (h.readCopy hmapped hpc) hloop
    | copied l size =>
      rw [← returned_readCopied h.1 l size]
      exact ih (h.readCopied hpc) hloop
    | idle | setup | queued | take | sleeping | oops =>
      obtain ⟨-, h⟩ := h
      rw [hpc] at h
      exact h.elim

/-- The copy loop run alone is a run of its steps, up to the end of its condition. -/
theorem exec_readLoop {n : ℕ} (h : Rx.readLoop mapped n i s = some s') :
    (∃ acts, Lts.exec rxStep s acts = some s') ∧ ∀ l, s'.pc = .loop l → ¬s'.More l := by
  induction n generalizing i s with
  | zero => cases h
  | succ n ih =>
    rw [Rx.readLoop] at h
    cases hpc : s.pc with simp only [hpc] at h
    | loop l =>
      split_ifs at h with hmore
      · obtain ⟨⟨acts, hacts⟩, hdone⟩ := ih h
        exact ⟨⟨.next :: acts, by simp [Lts.exec, rxStep, hpc, hmore, hacts]⟩, hdone⟩
      · cases h
        refine ⟨⟨[], rfl⟩, fun l' hl' => ?_⟩
        cases hpc.symm.trans hl'
        exact hmore
    | copy l =>
      obtain ⟨⟨acts, hacts⟩, hdone⟩ := ih h
      refine ⟨⟨.copyToUser (readSize l - min (readSize l) (mapped i)) :: acts, ?_⟩, hdone⟩
      simp only [Lts.exec, rxStep, hpc, Option.bind_some, hacts]
    | copied l size =>
      obtain ⟨⟨acts, hacts⟩, hdone⟩ := ih h
      refine ⟨⟨.copied :: acts, ?_⟩, hdone⟩
      simp only [Lts.exec, rxStep, hpc, Option.bind_some, hacts]
    | idle =>
      cases h
      refine ⟨⟨[], rfl⟩, fun l' hl' => ?_⟩
      cases hpc.symm.trans hl'
    | setup | queued | take | sleeping | oops => cases h

/-! ## The calls in a ready state -/

/-- The test of `scale_poll` and of `scale_read`. -/
def HasData (s : Rx) : Prop :=
  s.currentRx.bytes ≠ 0 ∨ s.rxBuffers ≠ []

theorem SameReads.hasData_iff (h : SameReads s s') : s'.HasData ↔ s.HasData := by
  rw [HasData, HasData, h.currentRx, h.rxBuffers]

theorem scalePoll_of_hasData {accepts : ℕ} (h : (s.setupRxReqs accepts).HasData)
    (txReqs : List ℕ) : (s.scalePoll accepts txReqs).2 &&& pollIn = pollIn := by
  have hstatus : (s.scalePoll accepts txReqs).2 =
      (if txReqs ≠ [] then 0 ||| pollOut else 0) ||| pollIn := if_pos h
  rw [hstatus]
  split_ifs <;> decide

theorem scalePoll_of_not_hasData {accepts : ℕ} (h : ¬(s.setupRxReqs accepts).HasData)
    (txReqs : List ℕ) : (s.scalePoll accepts txReqs).2 &&& pollIn = 0 := by
  have hstatus : (s.scalePoll accepts txReqs).2 = if txReqs ≠ [] then 0 ||| pollOut else 0 :=
    if_neg h
  rw [hstatus]
  split_ifs <;> decide

theorem copies_readTake {len : ℕ} (hlen : len ≠ 0) (hreset : s.resetScale = false)
    (hat : s.currentRx.At s.data) (hfull : ∀ r ∈ s.rxBuffers, s.data r ≠ []) (hdata : s.HasData) :
    s.readTake len true =
      { s with currentRx := .null, pc := .loop ⟨len, 0, s.currentRx, []⟩ } ∧
    (s.readTake len true).Copies := by
  have hne : ¬(s.currentRx.bytes = 0 ∧ s.rxBuffers = []) := by
    rintro ⟨hb, hnil⟩
    exact hdata.elim (fun h => h hb) fun h => h hnil
  have htake : s.readTake len true =
      { s with currentRx := .null, pc := .loop ⟨len, 0, s.currentRx, []⟩ } := by
    rw [readTake]
    exact if_neg hne
  refine ⟨htake, ?_⟩
  rw [htake]
  refine ⟨hreset, hat, .inr ⟨hlen, hdata.imp_right fun hbufs => ?_⟩⟩
  cases h : s.rxBuffers with
  | nil => exact absurd h hbufs
  | cons r rest => exact ⟨r, rest, rfl, hfull r (by rw [h]; exact mem_cons_self)⟩

/-- **A read with data in reach delivers some of it.** -/
theorem scaleRead_of_hasData {len : ℕ} (hlen : len ≠ 0) (hat : s.currentRx.At s.data)
    (hfull : ∀ r ∈ s.rxBuffers, s.data r ≠ []) (hdata : s.HasData) (accepts : ℕ) :
    ∃ fuel s' ubuf value, s.scaleRead accepts len fuel = some s' ∧
      s'.returned = s.returned ++ [(ubuf, value)] ∧ 0 < value := by
  have hsame := sameReads_setupRxReqs accepts { s with resetScale := false }
  set t := ({ s with resetScale := false } : Rx).setupRxReqs accepts with ht
  have hbufs : t.rxBuffers = s.rxBuffers := hsame.rxBuffers
  have hcur : t.currentRx = s.currentRx := hsame.currentRx
  have htdata : t.data = s.data := hsame.data
  have hret : t.returned = s.returned := hsame.returned
  have hat' : t.currentRx.At t.data := by rw [hcur, htdata]; exact hat
  have hfull' : ∀ r ∈ t.rxBuffers, t.data r ≠ [] := by rw [hbufs, htdata]; exact hfull
  obtain ⟨htake, hcopies⟩ :=
    copies_readTake hlen hsame.resetScale hat' hfull' (hsame.hasData_iff.2 hdata)
  have hpc' : (t.readTake len true).pc = .loop ⟨len, 0, t.currentRx, []⟩ := by rw [htake]
  obtain ⟨fuel, u, hloop⟩ : EndsFrom (fun _ => len) 0 (t.readTake len true) :=
    endsFrom_of_mapped (fun _ => hlen) hpc' (by rw [htake]; exact hat')
  obtain ⟨l, hpc, hpos, hreturned⟩ := hcopies.readLoop (fun _ => hlen) hloop
  refine ⟨fuel, u.readReturn l, l.ubuf, l.bytesCopied, ?_, ?_, by omega⟩
  · rw [scaleRead, if_neg hlen, ← ht]
    simp only [hpc', hloop, Option.bind_some, hpc]
  · have hval : (if l.bytesCopied ≠ 0 then (l.bytesCopied : ℤ) else -eagain) = l.bytesCopied :=
      if_pos (by omega)
    rw [readReturn, ret, hval, hreturned, htake]
    change t.returned ++ _ = _
    rw [hret]

theorem scaleRead_of_not_hasData {len : ℕ} (hlen : len ≠ 0) (hdata : ¬s.HasData) (accepts : ℕ) :
    ∃ fuel s' ubuf value, s.scaleRead accepts len fuel = some s' ∧
      s'.returned = s.returned ++ [(ubuf, value)] ∧ value = -eagain := by
  have hsame := sameReads_setupRxReqs accepts { s with resetScale := false }
  set t := ({ s with resetScale := false } : Rx).setupRxReqs accepts with ht
  have hret : t.returned = s.returned := hsame.returned
  have hno : t.currentRx.bytes = 0 ∧ t.rxBuffers = [] := by
    have hnot : ¬t.HasData := fun h => hdata (hsame.hasData_iff.1 h)
    rw [HasData, not_or, not_not, not_not] at hnot
    exact hnot
  have htake : t.readTake len true = { t with currentRx := .null }.ret [] (-eagain) := by
    rw [readTake]
    exact (if_pos hno).trans (if_pos rfl)
  refine ⟨0, t.readTake len true, [], -eagain, ?_, ?_, rfl⟩
  · rw [scaleRead, if_neg hlen, ← ht, htake]
    rfl
  · rw [htake]
    change t.returned ++ _ = _
    rw [hret]

theorem exec_scalePoll (hpc : s.pc = .idle) (accepts : ℕ) (txReqs : List ℕ) :
    ∃ acts, Lts.exec rxStep s (.poll :: acts) = some (s.scalePoll accepts txReqs).1 := by
  obtain ⟨acts, hacts⟩ := exec_setupRxReqs accepts s .poll
  have hidle : (s.setupRxReqs accepts).pc = .idle := (sameReads_setupRxReqs accepts s).pc.trans hpc
  refine ⟨acts, ?_⟩
  rw [Lts.exec_cons, rxStep, hpc]
  refine hacts.trans ?_
  rw [setupReturn, scalePoll, ← hidle]

theorem readTake_pc (s : Rx) (pc : Pc) (len : ℕ) (nonblock : Bool) :
    readTake { s with pc := pc } len nonblock = s.readTake len nonblock := by
  simp only [readTake, ret]

theorem exec_readTake (hpc : s.pc = .idle) {len : ℕ} (hlen : len ≠ 0) (accepts : ℕ) :
    ∃ acts, Lts.exec rxStep s (.read len true :: acts) =
      some (({ s with resetScale := false }.setupRxReqs accepts).readTake len true) := by
  obtain ⟨acts, hacts⟩ :=
    exec_setupRxReqs accepts { s with resetScale := false } (.read len true)
  have hstep : rxStep s (.read len true) =
      some { s with resetScale := false, pc := .setup (.read len true) } := by
    simp [rxStep, hpc, hlen]
  refine ⟨acts ++ [.take], ?_⟩
  rw [Lts.exec_cons, hstep, Option.bind_some, Lts.exec_append, hacts]
  exact congrArg some (readTake_pc _ _ _ _)

theorem exec_scaleRead (hpc : s.pc = .idle) {accepts len fuel : ℕ} (hlen : len ≠ 0)
    (h : s.scaleRead accepts len fuel = some s') :
    ∃ acts, Lts.exec rxStep s (.read len true :: acts) = some s' := by
  obtain ⟨acts, hacts⟩ := exec_readTake hpc hlen accepts
  rw [scaleRead, if_neg hlen] at h
  dsimp only at h
  split at h
  next hloop =>
    obtain ⟨u, hu, hend⟩ := Option.bind_eq_some_iff.1 h
    obtain ⟨⟨loop, hrun⟩, hdone⟩ := exec_readLoop hu
    have hrun' : Lts.exec rxStep s (.read len true :: (acts ++ loop)) = some u := by
      rw [← List.cons_append, Lts.exec_append, hacts]
      exact hrun
    split at hend
    next l hl =>
      cases hend
      refine ⟨acts ++ loop ++ [.finish], ?_⟩
      rw [← List.cons_append, Lts.exec_append, hrun']
      simp [Lts.exec, rxStep, hl, hdone l hl]
    next =>
      cases hend
      exact ⟨_, hrun'⟩
  next =>
    cases h
    exact ⟨acts, hacts⟩

end Rx

/-- **Poll and read agree.** -/
theorem poll_agrees_with_read (en : Bool) (acts : List RxAct) (s : Rx)
    (hC : Lts.Meets rxStep Sequential (Rx.bind en) acts)
    (h : Lts.exec rxStep (Rx.bind en) acts = some s) (hpc : s.pc = .idle)
    (hreset : s.reset.quiet = true) (txReqs : List ℕ) (polled accepts len : ℕ) (hlen : 0 < len) :
    ∃ s₁ status, s.scalePoll polled txReqs = (s₁, status) ∧
      (∃ pollActs, Lts.exec rxStep s (.poll :: pollActs) = some s₁) ∧
      ∃ fuel s₂ ubuf value, s₁.scaleRead accepts len fuel = some s₂ ∧
        (∃ readActs, Lts.exec rxStep s₁ (.read len true :: readActs) = some s₂) ∧
        s₂.returned = s₁.returned ++ [(ubuf, value)] ∧
        (status &&& Rx.pollIn = Rx.pollIn ↔ 0 < value) ∧
        (status &&& Rx.pollIn = 0 ↔ value = -eagain) := by
  have hready : s.Ready :=
    Lts.exec_induction (fun _ _ _ hi hc hs => hi.step hc (rxTrans_of_rxStep hs))
      (Rx.ready_bind en) hC h
  have hsame := Rx.sameReads_setupRxReqs polled s
  have hpc₁ : (s.setupRxReqs polled).pc = .idle := hsame.pc.trans hpc
  have hat : (s.setupRxReqs polled).currentRx.At (s.setupRxReqs polled).data := by
    rw [hsame.currentRx, hsame.data]
    exact (Rx.saved_iff_at hreset).1 hready.saved
  have hfull : ∀ r ∈ (s.setupRxReqs polled).rxBuffers, (s.setupRxReqs polled).data r ≠ [] := by
    rw [hsame.rxBuffers, hsame.data]
    exact hready.full
  have hne : len ≠ 0 := Nat.ne_of_gt hlen
  refine ⟨(s.scalePoll polled txReqs).1, (s.scalePoll polled txReqs).2, rfl,
    Rx.exec_scalePoll hpc polled txReqs, ?_⟩
  by_cases hdata : (s.setupRxReqs polled).HasData
  · obtain ⟨fuel, s₂, ubuf, value, hread, hret, hpos⟩ :=
      Rx.scaleRead_of_hasData hne hat hfull hdata accepts
    refine ⟨fuel, s₂, ubuf, value, hread, Rx.exec_scaleRead hpc₁ hne hread, hret, ?_⟩
    rw [Rx.scalePoll_of_hasData hdata]
    refine ⟨iff_of_true rfl hpos, iff_of_false (by decide) fun hneg => ?_⟩
    rw [hneg] at hpos
    exact absurd hpos (by decide)
  · obtain ⟨fuel, s₂, ubuf, value, hread, hret, hneg⟩ :=
      Rx.scaleRead_of_not_hasData hne hdata accepts
    refine ⟨fuel, s₂, ubuf, value, hread, Rx.exec_scaleRead hpc₁ hne hread, hret, ?_⟩
    rw [Rx.scalePoll_of_not_hasData hdata, hneg]
    exact ⟨iff_of_false (by decide) (by decide), iff_of_true rfl rfl⟩

/-- A request with two bytes completes behind a poll. -/
def pollReadRun : List RxAct :=
  [.poll, .queue false, .listAdd, .queue true, .complete 9 0 [65, 66]]

/-- The next poll sees the bytes, and so does a read of one byte. -/
theorem poll_agrees_pollReadRun :
    ∃ s, Lts.exec rxStep (Rx.bind true) pollReadRun = some s ∧
      ∃ s₁ status, s.scalePoll 3 [] = (s₁, status) ∧
        (∃ pollActs, Lts.exec rxStep s (.poll :: pollActs) = some s₁) ∧
        ∃ fuel s₂ ubuf value, s₁.scaleRead 0 1 fuel = some s₂ ∧
          (∃ readActs, Lts.exec rxStep s₁ (.read 1 true :: readActs) = some s₂) ∧
          s₂.returned = s₁.returned ++ [(ubuf, value)] ∧
          (status &&& Rx.pollIn = Rx.pollIn ↔ 0 < value) ∧
          (status &&& Rx.pollIn = 0 ↔ value = -eagain) :=
  ⟨_, rfl, poll_agrees_with_read true pollReadRun _ (by decide) rfl rfl rfl [] 3 0 1 (by decide)⟩

end LddExample.ScaleUsb
