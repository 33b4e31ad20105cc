import LddExample.ScaleUsb.Rx
import Mathlib.Data.List.Nodup

/-!
# Conservation of the receive requests

* `Rx.Conserved`: each request is in exactly one place.
* `NoRace`: the steps without the two races of the code. A request must not complete between
  `usb_ep_queue` and `list_add`, and `scale_read` must not take or save its position while
  `scale_soft_reset` has cleared one half of it.
* **`rx_conserved`**: in a run without these races the requests are conserved in every state.
* **`rx_complete_before_list_add`**: with a race they are not.
-/

namespace LddExample.ScaleUsb

open List

/-- The places of the requests, one entry for each occurrence. -/
def Rx.places (s : Rx) : List ℕ :=
  s.rxReqs ++ (s.rxReqsActive ++ s.pc.justQueued.toList) ++ s.rxBuffers ++
    s.currentRx.req.toList ++ s.pc.heldReq.toList

/-- **Each request of the pool is in exactly one place.** -/
def Rx.Conserved (s : Rx) : Prop :=
  ∀ r < qlen, s.places.count r = 1

instance (s : Rx) : Decidable s.Conserved :=
  inferInstanceAs (Decidable (∀ r < qlen, s.places.count r = 1))

/-- The step does not run into one of the two races. -/
def NoRace (s : Rx) : RxAct → Prop
  | .complete r _ _ => s.pc.justQueued ≠ some r
  | .take => s.reset = .clearBytes → s.currentRx.bytes = 0
  | .finish => s.reset = .clearBytes → s.pc.heldReq = none
  | _ => True

instance (s : Rx) : ∀ a, Decidable (NoRace s a)
  | .complete r _ _ => inferInstanceAs (Decidable (s.pc.justQueued ≠ some r))
  | .take => inferInstanceAs (Decidable (s.reset = .clearBytes → s.currentRx.bytes = 0))
  | .finish => inferInstanceAs (Decidable (s.reset = .clearBytes → s.pc.heldReq = none))
  | .read _ _ | .poll | .queue _ | .listAdd | .setupDone | .wake _ | .next | .copyToUser _
  | .copied | .disable | .disabled | .resetCurrent | .clearBytes | .clearBuf | .setReset
  | .drain | .enable _ | .enableTest _ => isTrue trivial

theorem noRace_of_unlocked {s : Rx} {r : ℕ} {status : ℤ} {payload : List UInt8}
    (h : s.pc.locked = false) : NoRace s (.complete r status payload) := by
  rw [NoRace]
  cases hpc : s.pc with
  | queued q c =>
    rw [hpc] at h
    cases h
  | idle | setup | take | sleeping | loop | copy | copied | oops =>
    intro hq
    cases hq

/-! ## The invariant -/

/-- A request is current exactly as long as bytes of it are left. -/
def CurrentRx.Ok (c : CurrentRx) : Prop :=
  c.req = none ↔ c.bytes = 0

theorem CurrentRx.ok_null : CurrentRx.null.Ok := by simp [Ok, null]

theorem CurrentRx.Ok.advance {c : CurrentRx} (h : c.Ok) {size : ℕ} (hs : size < c.bytes) :
    (c.advance size).Ok := by
  have hne : c.req ≠ none := fun hn => by
    have := h.1 hn
    omega
  simp only [Ok, CurrentRx.advance, hne, false_iff]
  omega

/-- What the controller holds is on `rx_reqs_active`, or about to be put there. -/
structure Rx.Controlled (s : Rx) : Prop where
  active : (s.rxReqsActive ++ s.pc.justQueued.toList).Perm s.queued
  off : s.enabled = false → s.queued = []
  reset : s.reset.off = true → s.enabled = false

/-- The position in the stream is with the running read or saved in the device, where it is
incomplete only between the two writes of `scale_soft_reset`. -/
structure Rx.Positioned (s : Rx) : Prop where
  dev : if s.reset = .clearBytes then s.currentRx.req = none else s.currentRx.Ok
  held : ∀ l, s.pc.readCall = some l → l.currentRx.Ok
  taken : s.pc.readCall ≠ none → s.currentRx = .null

/-- Each request is in one place, as long as no step is a race. -/
structure Rx.Inv (s : Rx) : Prop extends s.Controlled, s.Positioned where
  places : s.places.Perm (range qlen)

namespace Rx

variable {s s' : Rx} {a : RxAct}

theorem inv_bind (en : Bool) : (Rx.bind en).Inv where
  places := by simp [bind, Rx.places, Pc.justQueued, Pc.heldReq, Pc.readCall, CurrentRx.null]
  active := by simp [bind, Pc.justQueued]
  off := by simp [bind]
  reset := by simp [bind, ResetPc.off]
  dev := by simpa [bind] using CurrentRx.ok_null
  held := by simp [bind, Pc.readCall]
  taken := by simp [bind, Pc.readCall]

theorem Inv.nodup (h : s.Inv) : s.places.Nodup :=
  h.places.nodup_iff.2 nodup_range

theorem Inv.conserved (h : s.Inv) : s.Conserved := fun r hr => by
  rw [h.places.count_eq, count_eq_one_of_mem nodup_range (mem_range.2 hr)]

theorem Inv.mem_active (h : s.Inv) {r : ℕ} (hr : r ∈ s.queued) (hj : s.pc.justQueued ≠ some r) :
    r ∈ s.rxReqsActive := by
  have := h.active.mem_iff.2 hr
  rw [mem_append, Option.mem_toList] at this
  exact this.resolve_right hj

/-- An accepted request is on `rx_reqs_active` and nowhere else, the race apart. -/
theorem Inv.count_of_queued (h : s.Inv) {r : ℕ} (hr : r ∈ s.queued)
    (hj : s.pc.justQueued ≠ some r) :
    s.rxReqsActive.count r = 1 ∧ s.rxReqs.count r = 0 ∧ s.rxBuffers.count r = 0 ∧
      s.currentRx.req.toList.count r = 0 ∧ s.pc.heldReq.toList.count r = 0 := by
  have hpos : 0 < s.rxReqsActive.count r := count_pos_iff.2 (h.mem_active hr hj)
  have hone : s.places.count r ≤ 1 := nodup_iff_count_le_one.1 h.nodup r
  simp only [Rx.places, count_append] at hone
  omega

theorem Inv.data_complete (h : s.Inv) {r : ℕ} (hr : r ∈ s.queued) (hj : s.pc.justQueued ≠ some r)
    (status : ℤ) (payload : List UInt8) {q : ℕ}
    (hq : q ∈ s.rxBuffers ∨ s.currentRx.req = some q ∨ s.pc.heldReq = some q) :
    (s.complete r status payload).data q = s.data q := by
  obtain ⟨-, -, hbuf, hdev, hheld⟩ := h.count_of_queued hr hj
  rw [count_eq_zero] at hbuf hdev hheld
  rw [complete_data]
  refine if_neg ?_
  rintro rfl
  obtain hq | hq | hq := hq
  · exact hbuf hq
  · exact hdev (by rw [hq]; exact mem_singleton.2 rfl)
  · exact hheld (by rw [hq]; exact mem_singleton.2 rfl)

theorem places_complete (h : s.Inv) {r : ℕ} (hr : r ∈ s.queued) (hj : s.pc.justQueued ≠ some r)
    (status : ℤ) (payload : List UInt8) : (s.complete r status payload).places.Perm s.places := by
  obtain ⟨h₁, h₂, h₃, -, -⟩ := h.count_of_queued hr hj
  refine perm_iff_count.2 fun q => ?_
  rw [complete, rxComplete]
  split_ifs <;> simp only [listDelInit, Rx.places, count_append, count_erase, count_cons,
    count_nil, beq_iff_eq] <;> split_ifs <;> subst_vars <;> omega

theorem Inv.ok_of_take (h : s.Inv) (hC : NoRace s .take) : s.currentRx.Ok := by
  have hdev := h.dev
  split_ifs at hdev with hr
  · simp [CurrentRx.Ok, hdev, hC hr]
  · exact hdev

theorem places_readTake (hc : s.currentRx.Ok) {len : ℕ} {nonblock : Bool}
    (hpc : s.pc = .take len nonblock) : (s.readTake len nonblock).places.Perm s.places := by
  refine perm_iff_count.2 fun q => ?_
  rw [readTake]
  split_ifs with hnone hnb
  · have hreq : s.currentRx.req = none := hc.2 hnone.1
    simp [ret, Rx.places, hpc, hreq, Pc.justQueued, Pc.heldReq, Pc.readCall, CurrentRx.null]
  all_goals
    simp [Rx.places, hpc, Pc.justQueued, Pc.heldReq, Pc.readCall, CurrentRx.null]

theorem places_readNext {l : ReadCall} (hc : l.currentRx.Ok) (hpc : s.pc = .loop l) :
    (s.readNext l).places.Perm s.places := by
  refine perm_iff_count.2 fun q => ?_
  rw [readNext]
  split_ifs with hb
  · -- no current buffer, so nothing is overwritten when the next one becomes current
    have hreq : l.currentRx.req = none := hc.2 hb
    split
    · rfl
    · next r rest hbuf =>
      dsimp only
      split_ifs <;> simp [Rx.places, hpc, hreq, hbuf, Pc.justQueued, Pc.heldReq, Pc.readCall,
        count_cons] <;> omega
  · simp [Rx.places, hpc, Pc.justQueued, Pc.heldReq, Pc.readCall]

theorem places_readCopy {l : ReadCall} (hpc : s.pc = .copy l) (left : ℕ) :
    (s.readCopy l left).places.Perm s.places := by
  rw [readCopy]
  split <;> simp [Rx.places, hpc, Pc.justQueued, Pc.heldReq, Pc.readCall]

theorem places_readCopied {l : ReadCall} {size : ℕ} (hpc : s.pc = .copied l size) :
    (s.readCopied l size).places.Perm s.places := by
  refine perm_iff_count.2 fun q => ?_
  rw [readCopied]
  split_ifs
  · split <;> simp [ret, Rx.places, *, Pc.justQueued, Pc.heldReq, Pc.readCall, count_cons]
    omega
  · simp [Rx.places, hpc, Pc.justQueued, Pc.heldReq, Pc.readCall, CurrentRx.advance]
  · split <;> simp [Rx.places, *, Pc.justQueued, Pc.heldReq, Pc.readCall, CurrentRx.null,
      count_cons]
    omega

/-- After `usb_ep_disable` the drain loop of `scale_soft_reset` has nothing to do. -/
theorem Inv.active_nil (h : s.Inv) (hoff : s.reset.off = true) : s.rxReqsActive = [] := by
  have hq : s.queued = [] := h.off (h.reset hoff)
  have := h.active
  rw [hq, perm_nil, append_eq_nil_iff] at this
  exact this.1

/-- **A step moves the requests between the places.** -/
theorem places_step (h : s.Inv) (hC : NoRace s a) (hs : RxTrans s a s') :
    s'.places.Perm s.places := by
  cases hs with
  | readZero hpc | read hpc | poll hpc =>
    simp [Rx.places, ret, hpc, Pc.justQueued, Pc.heldReq, Pc.readCall]
  | @queueErr c hpc | @setupDone c hpc =>
    cases c <;> simp [setupReturn, Rx.places, hpc, Pc.justQueued, Pc.heldReq, Pc.readCall]
  | queueOk hpc hreqs =>
    refine perm_iff_count.2 fun q => ?_
    simp [Rx.places, hpc, hreqs, Pc.justQueued, Pc.heldReq, Pc.readCall, count_cons]
    omega
  | listAdd hpc =>
    refine perm_iff_count.2 fun q => ?_
    simp [Rx.places, hpc, Pc.justQueued, Pc.heldReq, Pc.readCall, count_cons]
    omega
  | take hpc => exact places_readTake (h.ok_of_take hC) hpc
  | wake hpc => simp [Rx.places, hpc, Pc.justQueued, Pc.heldReq, Pc.readCall]
  | next hpc hmore => exact places_readNext (h.held _ (by simp [hpc, Pc.readCall])) hpc
  | copyToUser hpc => exact places_readCopy hpc _
  | copied hpc => exact places_readCopied hpc
  | finish hpc hmore =>
    have hnull : s.currentRx = .null := h.taken (by simp [hpc, Pc.readCall])
    simp [readReturn, ret, Rx.places, hpc, hnull, Pc.justQueued, Pc.heldReq, Pc.readCall,
      CurrentRx.null]
  | complete hr => exact places_complete h hr hC _ _
  | disable | disabled | clearBytes | clearBuf | setReset | enable | enableNull | enableTest => rfl
  | resetCurrent hreset =>
    refine perm_iff_count.2 fun q => ?_
    rw [Rx.resetCurrent]
    split <;> simp [Rx.places, *, count_cons]
    omega
  | drain hreset => simp [resetDrain, h.active_nil (by simp [hreset, ResetPc.off]), Rx.places]

theorem Controlled.congr (h : s.Controlled) (ha : s'.rxReqsActive = s.rxReqsActive)
    (hj : s'.pc.justQueued = s.pc.justQueued) (hq : s'.queued = s.queued)
    (he : s'.enabled = s.enabled) (hr : s'.reset = s.reset) : s'.Controlled :=
  ⟨ha ▸ hj ▸ hq ▸ h.active, he ▸ hq ▸ h.off, hr ▸ he ▸ h.reset⟩

theorem Inv.controlled_step (h : s.Inv) (hC : NoRace s a) (hs : RxTrans s a s') :
    s'.Controlled := by
  have hctl : s.Controlled := h.toControlled
  cases hs with
  | readZero hpc | read hpc | poll hpc | wake hpc | finish hpc =>
    exact hctl.congr rfl (by rw [hpc]; rfl) rfl rfl rfl
  | @queueErr c hpc | @setupDone c hpc =>
    cases c <;> exact hctl.congr rfl (by rw [hpc]; rfl) rfl rfl rfl
  | queueOk hpc hreqs hen =>
    refine ⟨?_, by simp [hen], h.reset⟩
    have := h.active
    simp only [hpc, Pc.justQueued, Option.toList_none, append_nil] at this
    simpa [Pc.justQueued] using (perm_append_singleton _ _).trans (this.cons _)
  | @listAdd r c hpc =>
    refine ⟨?_, h.off, h.reset⟩
    have := h.active
    simp only [hpc, Pc.justQueued, Option.toList_some] at this
    simpa [Pc.justQueued] using (perm_append_singleton _ _).symm.trans this
  | take hpc =>
    simp only [readTake, ret]
    split_ifs <;> exact hctl.congr rfl (by rw [hpc]; rfl) rfl rfl rfl
  | next hpc =>
    simp only [readNext]
    repeat' split
    all_goals exact hctl.congr rfl (by simp [hpc, Pc.justQueued]) rfl rfl rfl
  | copyToUser hpc =>
    simp only [readCopy]
    split <;> exact hctl.congr rfl (by rw [hpc]; rfl) rfl rfl rfl
  | copied hpc =>
    simp only [readCopied, ret]
    repeat' split
    all_goals exact hctl.congr rfl (by rw [hpc]; rfl) rfl rfl rfl
  | @complete r status payload hr =>
    refine ⟨?_, fun hen => ?_, ?_⟩
    · have := h.active.erase r
      rw [erase_append_left _ (h.mem_active hr hC)] at this
      simpa using this
    · simp [h.off (by simpa using hen)]
    · simpa using h.reset
  | disable hreset => exact ⟨h.active, h.off, by simp [ResetPc.off]⟩
  | disabled hreset hq => exact ⟨h.active, fun _ => hq, fun _ => rfl⟩
  | resetCurrent hreset =>
    have := h.reset (by simp [hreset, ResetPc.off])
    rw [Rx.resetCurrent]
    split <;> exact ⟨h.active, h.off, fun _ => this⟩
  | clearBytes hreset | clearBuf hreset | setReset hreset =>
    exact ⟨h.active, h.off, fun _ => h.reset (by simp [hreset, ResetPc.off])⟩
  | drain hreset =>
    have := h.reset (by simp [hreset, ResetPc.off])
    rw [resetDrain, if_pos (h.active_nil (by simp [hreset, ResetPc.off]))]
    exact ⟨h.active, h.off, fun _ => this⟩
  | enable hreset =>
    have hq := h.off (h.reset (by simp [hreset, ResetPc.off]))
    exact ⟨h.active, fun _ => hq, by simp [ResetPc.off]⟩
  | enableNull | enableTest => exact ⟨h.active, h.off, by simp [ResetPc.off]⟩

theorem Positioned.reading (h : s.Positioned) (hread : s.pc.readCall ≠ none) {l : ReadCall}
    (hpc : s'.pc.readCall = some l) (hok : l.currentRx.Ok) (hc : s'.currentRx = s.currentRx)
    (hr : s'.reset = s.reset) : s'.Positioned := by
  refine ⟨hr ▸ hc ▸ h.dev, fun l' hl' => ?_, fun _ => hc.trans (h.taken hread)⟩
  obtain rfl : l = l' := Option.some.inj (hpc.symm.trans hl')
  exact hok

section Reading

variable {l : ReadCall}

theorem Positioned.readNext (h : s.Positioned) (hpc : s.pc = .loop l) :
    (s.readNext l).Positioned := by
  have hread : s.pc.readCall = some l := by rw [hpc]; rfl
  have hok := h.held l hread
  have hsome : s.pc.readCall ≠ none := by simp [hread]
  simp only [Rx.readNext]
  split_ifs
  · split
    · exact h
    · split_ifs with hlen
      · exact h.reading hsome rfl (by simp [CurrentRx.Ok, hlen]) rfl rfl
      · exact h.reading hsome rfl hok rfl rfl
  · exact h.reading hsome rfl hok rfl rfl

theorem Positioned.readCopy (h : s.Positioned) (hpc : s.pc = .copy l) (left : ℕ) :
    (s.readCopy l left).Positioned := by
  have hread : s.pc.readCall = some l := by rw [hpc]; rfl
  have hok := h.held l hread
  simp only [Rx.readCopy]
  split <;> exact h.reading (by simp [hread]) rfl hok rfl rfl

theorem Positioned.readCopied (h : s.Positioned) {size : ℕ}
    (hpc : s.pc = .copied l size) : (s.readCopied l size).Positioned := by
  have hread : s.pc.readCall = some l := by rw [hpc]; rfl
  have hok := h.held l hread
  have hsome : s.pc.readCall ≠ none := by simp [hread]
  simp only [Rx.readCopied, ret]
  split_ifs with _ hsize
  · split
    · exact h.reading hsome rfl hok rfl rfl
    · exact ⟨h.dev, by simp [Pc.readCall], by simp [Pc.readCall]⟩
  · exact h.reading hsome rfl (hok.advance hsize) rfl rfl
  · split
    · exact h.reading hsome rfl hok rfl rfl
    · exact h.reading hsome rfl CurrentRx.ok_null rfl rfl

end Reading

theorem Inv.positioned_step (h : s.Inv) (hC : NoRace s a) (hs : RxTrans s a s') :
    s'.Positioned := by
  cases hs with
  | readZero hpc | read hpc | poll hpc | listAdd hpc | queueOk hpc =>
    exact ⟨h.dev, by simp [ret, Pc.readCall], by simp [ret, Pc.readCall]⟩
  | @queueErr c hpc | @setupDone c hpc =>
    cases c <;>
      exact ⟨h.dev, by simp [setupReturn, Pc.readCall], by simp [setupReturn, Pc.readCall]⟩
  | take hpc =>
    have hok := h.ok_of_take hC
    have hnull : if s.reset = .clearBytes then CurrentRx.null.req = none
        else CurrentRx.null.Ok := by
      simp [CurrentRx.null, CurrentRx.Ok]
    simp only [readTake, ret]
    split_ifs
    · exact ⟨hnull, by simp [Pc.readCall], by simp⟩
    all_goals exact ⟨hnull, by simpa [Pc.readCall] using hok, by simp⟩
  | wake hpc =>
    exact ⟨h.dev, fun l hl => h.held l (by rw [hpc]; exact hl),
      fun _ => h.taken (by simp [hpc, Pc.readCall])⟩
  | next hpc => exact h.toPositioned.readNext hpc
  | copyToUser hpc => exact h.toPositioned.readCopy hpc _
  | copied hpc => exact h.toPositioned.readCopied hpc
  | @finish l hpc =>
    refine ⟨?_, by simp [readReturn, ret, Pc.readCall], by simp [readReturn, ret, Pc.readCall]⟩
    have hreq : s.reset = .clearBytes → l.currentRx.req = none := fun hr => by
      simpa [hpc, Pc.heldReq, Pc.readCall] using hC hr
    have hok := h.held l (by rw [hpc]; rfl)
    show if s.reset = .clearBytes then l.currentRx.req = none else l.currentRx.Ok
    split_ifs with hr
    · exact hreq hr
    · exact hok
  | complete hr => exact ⟨by simpa using h.dev, by simpa using h.held, by simpa using h.taken⟩
  | disable hreset =>
    have hdev := h.dev
    rw [if_neg (by obtain hr | hr := hreset <;> simp [hr])] at hdev
    exact ⟨by simpa [CurrentRx.Ok] using hdev, h.held,
      fun ht => by simp [h.taken ht, CurrentRx.null]⟩
  | disabled hreset | clearBuf hreset | setReset hreset | enable hreset | enableNull hreset
  | enableTest hreset =>
    have hdev := h.dev
    simp only [hreset, reduceCtorEq, if_false] at hdev
    exact ⟨by simpa [CurrentRx.Ok] using hdev, h.held,
      fun ht => by simp [h.taken ht, CurrentRx.null]⟩
  | resetCurrent hreset =>
    rw [Rx.resetCurrent]
    split
    · next hreq => exact ⟨by simpa using hreq, h.held, h.taken⟩
    · exact ⟨by simp, h.held, fun ht => by simp [h.taken ht, CurrentRx.null]⟩
  | clearBytes hreset =>
    have hdev := h.dev
    rw [if_pos hreset] at hdev
    exact ⟨by simp [CurrentRx.Ok, hdev], h.held, fun ht => by simp [h.taken ht, CurrentRx.null]⟩
  | drain hreset =>
    have hdev := h.dev
    simp only [hreset, reduceCtorEq, if_false] at hdev
    rw [resetDrain, if_pos (h.active_nil (by simp [hreset, ResetPc.off]))]
    exact ⟨by simpa using hdev, h.held, h.taken⟩

/-- **The invariant is kept by every step without a race.** -/
theorem Inv.step (h : s.Inv) (hC : NoRace s a) (hs : RxTrans s a s') : s'.Inv where
  toControlled := h.controlled_step hC hs
  toPositioned := h.positioned_step hC hs
  places := (places_step h hC hs).trans h.places

end Rx

/-! ## Whole runs -/

/-- **In a run without the two races each request stays in exactly one place.** -/
theorem rx_conserved (en : Bool) (l : List RxAct) (s : Rx)
    (hC : Lts.Meets rxStep NoRace (Rx.bind en) l) (h : Lts.exec rxStep (Rx.bind en) l = some s) :
    s.Conserved :=
  (Lts.exec_induction (fun _ _ _ hi hc hs => hi.step hc (rxTrans_of_rxStep hs))
    (Rx.inv_bind en) hC h).conserved

/-- A read that is cut short by a soft reset. -/
def resetRun : List RxAct :=
  [.read 1 false, .queue false, .listAdd, .queue true, .take, .complete 9 0 [65, 66], .wake false,
    .next, .disable, .disabled, .resetCurrent, .copyToUser 0, .clearBytes, .clearBuf, .setReset,
    .drain, .copied, .enable false]

theorem rx_conserved_resetRun :
    ∃ s, Lts.exec rxStep (Rx.bind true) resetRun = some s ∧ s.Conserved :=
  ⟨_, rfl, rx_conserved true resetRun _ (by decide) rfl⟩

/-- **A request that completes before `list_add` is on two lists.** -/
theorem rx_complete_before_list_add :
    (Lts.exec rxStep (Rx.bind true)
      [.read 1 false, .queue false, .complete 9 0 [65], .listAdd]).map
        (fun s => (s.rxBuffers, s.rxReqsActive, decide s.Conserved)) = some ([9], [9], false) := by
  decide

-- `scale_read` saves its position between the two writes of `scale_soft_reset`: the next read
-- finds a request without bytes and drops it
example : (Lts.exec rxStep (Rx.bind true)
    [.read 1 false, .queue false, .listAdd, .queue true, .take, .complete 9 0 [65, 66], .wake false,
      .next, .copyToUser 0, .disable, .disabled, .resetCurrent, .copied, .finish, .clearBytes,
      .clearBuf, .setReset, .drain, .enable false, .read 1 true, .queue true, .take]).map
        (fun s => s.places.count 9) = some 0 := by
  decide

end LddExample.ScaleUsb
