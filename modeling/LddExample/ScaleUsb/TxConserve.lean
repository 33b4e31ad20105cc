import LddExample.ScaleUsb.Tx
import Mathlib.Data.List.Nodup

/-!
# Conservation of the transmit requests

* `Tx.Conserved`: each request is in exactly one place, and `tx_reqs_active` holds the requests that
  are accepted and not completed.
* `Tx.Controlled`: what every step keeps of `tx_reqs_active` and the controller.
* `NoLostAdd`: when the `list_add` of a write whose copy has faulted stores its pointers, `tx_reqs`
  is still as it has read it. A completion in between is lost.
* **`tx_conserved_iff`**: the requests are conserved in every state of a run in which `dev->lock` is
  free exactly when no step of the run loses a completion.
* **`tx_complete_in_list_add`**: such a completion.
-/

namespace LddExample.ScaleUsb

open List

/-- The places of the requests, one entry for each occurrence. -/
def Tx.places (s : Tx) : List ℕ :=
  s.txReqs ++ s.txReqsActive ++ s.pc.heldReq.toList

/-- **Each request is in exactly one place, and `tx_reqs_active` holds what the controller has
accepted and not completed.** -/
structure Tx.Conserved (s : Tx) : Prop where
  once : ∀ r < qlen, s.places.count r = 1
  active : s.txReqsActive.Perm s.queued

/-- What the `list_add` of a write whose copy has faulted found in `tx_reqs`. -/
def TxPc.next : TxPc → Option (List ℕ)
  | putBack _ _ next => some next
  | idle | sleeping _ | stuck _ | loop _ | copy _ _ | copied _ _ | queue _ _ | queued _ _ => none

/-- The step does not lose a completion: `tx_reqs` is what `list_add` has read before it stores. -/
def NoLostAdd (s : Tx) : TxAct → Prop
  | .putBack => s.pc.next = some s.txReqs
  | _ => True

instance : ∀ s a, Decidable (NoLostAdd s a)
  | s, .putBack => inferInstanceAs (Decidable (s.pc.next = some s.txReqs))
  | _, .write _ _ _ | _, .wake _ | _, .next | _, .copyFromUser _ | _, .copied | _, .queue _
  | _, .listAdd | _, .complete _ | _, .disable | _, .disabled | _, .setReset | _, .drain
  | _, .enable _ | _, .enableTest _ => isTrue trivial

/-! ## The controller -/

/-- What the controller holds is on `tx_reqs_active`, or about to be put there. -/
structure Tx.Controlled (s : Tx) : Prop where
  active : (s.txReqsActive ++ s.pc.justQueued.toList).Perm s.queued
  off : s.enabled = false → s.queued = []
  reset : s.reset.off = true → s.enabled = false

/-- Between `usb_ep_queue` and `list_add` a request is in none of the places; a `list_add` after a
fault has read a part of `tx_reqs`, which grows at its head. -/
structure Tx.Inv (s : Tx) : Prop extends s.Controlled where
  places : (s.places ++ s.pc.justQueued.toList).Perm (range qlen)
  next : ∀ next, s.pc.next = some next → next <:+ s.txReqs

namespace Tx

variable {maxpacket : ℕ} {s s' : Tx} {a : TxAct}

theorem controlled_bind (en : Bool) : (Tx.bind en).Controlled where
  active := by simp [bind, TxPc.justQueued]
  off := by simp [bind]
  reset := by simp [bind, TxResetPc.off]

theorem inv_bind (en : Bool) : (Tx.bind en).Inv where
  toControlled := controlled_bind en
  places := by simp [bind, Tx.places, TxPc.justQueued, TxPc.heldReq]
  next := by simp [bind, TxPc.next]

theorem justQueued_of_unlocked {pc : TxPc} (h : pc.locked = false) : pc.justQueued = none := by
  cases pc <;> simp_all [TxPc.locked, TxPc.justQueued]

theorem resetDrain_of_nil (h : s.txReqsActive = []) (next : TxResetPc) :
    s.resetDrain next = { s with reset := next } := by
  rw [Tx.resetDrain]
  split
  next => rfl
  next hcons => simp [h] at hcons

/-- After `usb_ep_disable` the loops of `scale_soft_reset` have nothing to do. -/
theorem Controlled.active_nil (h : s.Controlled) (hoff : s.reset.off = true) :
    s.txReqsActive = [] := by
  have hq : s.queued = [] := h.off (h.reset hoff)
  have := h.active
  rw [hq, perm_nil, append_eq_nil_iff] at this
  exact this.1

theorem Controlled.congr (h : s.Controlled) (hj : s'.pc.justQueued = s.pc.justQueued)
    (ha : s'.txReqsActive = s.txReqsActive) (hq : s'.queued = s.queued)
    (he : s'.enabled = s.enabled) (hr : s'.reset = s.reset) : s'.Controlled :=
  ⟨ha ▸ hj ▸ hq ▸ h.active, he ▸ hq ▸ h.off, hr ▸ he ▸ h.reset⟩

theorem Controlled.of_write (h : s.Controlled) (hold : s.pc.justQueued = none)
    (hnew : s'.pc.justQueued = none) (ha : s'.txReqsActive = s.txReqsActive)
    (hq : s'.queued = s.queued) (he : s'.enabled = s.enabled) (hr : s'.reset = s.reset) :
    s'.Controlled :=
  h.congr (hnew.trans hold.symm) ha hq he hr

/-- **A step keeps what the controller holds on `tx_reqs_active`.** -/
theorem Controlled.step (h : s.Controlled) (hs : TxTrans maxpacket s a s') : s'.Controlled := by
  cases hs with
  | write hpc =>
    simp only [Tx.write, ret]
    split_ifs <;> exact h.of_write (by rw [hpc]; rfl) rfl rfl rfl rfl rfl
  | wake hpc | putBack hpc | queueErr hpc =>
    exact h.of_write (by rw [hpc]; rfl) rfl rfl rfl rfl rfl
  | next hpc =>
    unfold Tx.writeNext
    split
    · exact h.of_write (by rw [hpc]; rfl) rfl rfl rfl rfl rfl
    · split <;> exact h.of_write (by rw [hpc]; rfl) rfl rfl rfl rfl rfl
  | copyFromUser hpc =>
    unfold Tx.writeCopy
    split_ifs <;> exact h.of_write (by rw [hpc]; rfl) rfl rfl rfl rfl rfl
  | copied hpc =>
    unfold Tx.writeCopied
    split_ifs <;> exact h.of_write (by rw [hpc]; rfl) rfl rfl rfl rfl rfl
  | @queueOk w r hpc hen =>
    have hactive := h.active
    simp only [hpc, TxPc.justQueued, Option.toList_none, append_nil] at hactive
    refine ⟨?_, by simp [Tx.queueOk, hen], h.reset⟩
    simpa [Tx.queueOk, TxPc.justQueued] using (perm_append_singleton _ _).trans (hactive.cons _)
  | @listAdd w r hpc =>
    have hactive := h.active
    simp only [hpc, TxPc.justQueued, Option.toList_some] at hactive
    refine ⟨?_, h.off, h.reset⟩
    simpa [TxPc.justQueued] using (perm_append_singleton _ _).symm.trans hactive
  | @complete r hr hlock =>
    -- `lock` is free, so the request is on `tx_reqs_active`
    have hactive := h.active
    rw [justQueued_of_unlocked hlock, Option.toList_none, append_nil] at hactive
    refine ⟨?_, fun hen => ?_, h.reset⟩
    · simpa [Tx.txComplete, justQueued_of_unlocked hlock] using hactive.erase r
    · simp [Tx.txComplete, h.off hen]
  | disable => exact ⟨h.active, h.off, by simp [TxResetPc.off]⟩
  | disabled _ hq => exact ⟨h.active, fun _ => hq, fun _ => rfl⟩
  | setReset hreset => exact ⟨h.active, h.off, fun _ => h.reset (by simp [hreset, TxResetPc.off])⟩
  | drain hreset | drainAgain hreset =>
    have hoff : s.reset.off = true := by simp [hreset, TxResetPc.off]
    rw [resetDrain_of_nil (h.active_nil hoff)]
    exact ⟨h.active, h.off, fun _ => h.reset hoff⟩
  | enable hreset =>
    have hq := h.off (h.reset (by simp [hreset, TxResetPc.off]))
    exact ⟨h.active, fun _ => hq, by simp [TxResetPc.off]⟩
  | enableNull | enableTest => exact ⟨h.active, h.off, by simp [TxResetPc.off]⟩

/-! ## The places -/

theorem Inv.of_places (h : s.Inv) (hc : s'.Controlled) (hold : s.pc.justQueued = none)
    (hnew : s'.pc.justQueued = none) (hnext : s'.pc.next = none) (hp : s'.places.Perm s.places) :
    s'.Inv := by
  refine ⟨hc, ?_, by simp [hnext]⟩
  have hplaces := h.places
  rw [hold] at hplaces
  rw [hnew]
  exact (hp.append_right _).trans hplaces

theorem Inv.write (h : s.Inv) (hpc : s.pc = .idle) (interface : ℤ) (buf : List UInt8)
    (nonblock : Bool) (hc : (s.write interface buf nonblock).Controlled) :
    (s.write interface buf nonblock).Inv := by
  simp only [Tx.write, ret] at hc ⊢
  split_ifs at hc ⊢ <;>
    exact h.of_places hc (by rw [hpc]; rfl) rfl rfl (by simp [Tx.places, hpc, TxPc.heldReq])

theorem Inv.writeNext (h : s.Inv) {w : WriteCall} (hpc : s.pc = .loop w)
    (hc : (s.writeNext maxpacket w).Controlled) : (s.writeNext maxpacket w).Inv := by
  have hj : s.pc.justQueued = none := by rw [hpc]; rfl
  unfold Tx.writeNext at hc ⊢
  split at hc
  · exact h.of_places hc hj rfl rfl (by simp [ret, Tx.places, hpc, TxPc.heldReq])
  next r rest hreqs =>
    split at hc
    next hlen =>
      rw [if_pos hlen]
      exact h.of_places hc hj rfl rfl (by simp [ret, Tx.places, hpc, TxPc.heldReq])
    next hlen =>
      rw [if_neg hlen]
      refine h.of_places hc hj rfl rfl (perm_iff_count.2 fun q => ?_)
      simp [Tx.places, hpc, hreqs, TxPc.heldReq, count_cons]
      omega

theorem Inv.put_back (h : s.Inv) {r : ℕ} (hj : s.pc.justQueued = none) (hr : s.pc.heldReq = some r)
    {w : WriteCall} {value : ℤ} (hc : ({ s with txReqs := r :: s.txReqs }.ret w value).Controlled) :
    ({ s with txReqs := r :: s.txReqs }.ret w value).Inv := by
  refine h.of_places hc hj rfl rfl (perm_iff_count.2 fun q => ?_)
  simp only [ret, Tx.places, hr, Option.toList_some, count_append, count_cons, count_nil]
  simp only [TxPc.heldReq, Option.toList_none, count_nil]
  omega

theorem Inv.writeCopy (h : s.Inv) {w : WriteCall} {r : ℕ} (hpc : s.pc = .copy w r) (fault : Bool)
    (hc : (s.writeCopy w r fault).Controlled) : (s.writeCopy w r fault).Inv := by
  have hj : s.pc.justQueued = none := by rw [hpc]; rfl
  unfold Tx.writeCopy at hc ⊢
  split_ifs at hc ⊢
  · refine ⟨hc, ?_, fun next hnext => ?_⟩
    · simpa [Tx.places, hpc, TxPc.justQueued, TxPc.heldReq] using h.places
    · cases hnext
      exact suffix_rfl
  · exact h.of_places hc hj rfl rfl (by simp [Tx.places, hpc, TxPc.heldReq])

theorem Inv.writeCopied (h : s.Inv) {w : WriteCall} {r : ℕ} (hpc : s.pc = .copied w r)
    (hc : (s.writeCopied w r).Controlled) : (s.writeCopied w r).Inv := by
  have hj : s.pc.justQueued = none := by rw [hpc]; rfl
  unfold Tx.writeCopied at hc ⊢
  split_ifs at hc ⊢
  · exact h.put_back hj (by rw [hpc]; rfl) hc
  · exact h.of_places hc hj rfl rfl (by simp [Tx.places, hpc, TxPc.heldReq])

theorem Inv.queueOk (h : s.Inv) {w : WriteCall} {r : ℕ} (hpc : s.pc = .queue w r)
    (hc : (s.queueOk w r).Controlled) : (s.queueOk w r).Inv := by
  refine ⟨hc, ?_, by simp [Tx.queueOk, TxPc.next]⟩
  have hplaces := h.places
  simp only [Tx.places, hpc, TxPc.justQueued, TxPc.heldReq, Option.toList_none, Option.toList_some,
    append_nil] at hplaces
  simpa [Tx.queueOk, Tx.places, TxPc.justQueued, TxPc.heldReq] using hplaces

theorem Inv.listAdd (h : s.Inv) {w : WriteCall} {r : ℕ} (hpc : s.pc = .queued w r)
    (hc : ({ s with txReqsActive := r :: s.txReqsActive, pc := .loop w } : Tx).Controlled) :
    ({ s with txReqsActive := r :: s.txReqsActive, pc := .loop w } : Tx).Inv := by
  refine ⟨hc, ?_, by simp [TxPc.next]⟩
  have hplaces := h.places
  simp only [Tx.places, hpc, TxPc.justQueued, TxPc.heldReq, Option.toList_none, Option.toList_some,
    append_nil] at hplaces
  refine .trans (perm_iff_count.2 fun q => ?_) hplaces
  simp only [Tx.places, TxPc.justQueued, TxPc.heldReq, Option.toList_none, count_append,
    count_cons, count_nil]
  omega

theorem Inv.count_le_one (h : s.Inv) (q : ℕ) :
    s.txReqs.count q + s.txReqsActive.count q + s.pc.heldReq.toList.count q ≤ 1 := by
  have hone := nodup_iff_count_le_one.1 (h.places.nodup_iff.2 nodup_range) q
  simp only [Tx.places, count_append] at hone
  omega

/-- `tx_complete` runs while `lock` is free, so its request is on `tx_reqs_active`. -/
theorem Inv.txComplete (h : s.Inv) {r : ℕ} (hr : r ∈ s.queued) (hlock : s.pc.locked = false)
    (hc : (s.txComplete r).Controlled) : (s.txComplete r).Inv := by
  have hj : s.pc.justQueued = none := justQueued_of_unlocked hlock
  have hactive := h.active
  rw [hj, Option.toList_none, append_nil] at hactive
  have hpos : 0 < s.txReqsActive.count r := count_pos_iff.2 (hactive.mem_iff.2 hr)
  have hone := h.count_le_one r
  refine ⟨hc, ?_, fun next hnext => ?_⟩
  · have hplaces := h.places
    rw [hj, Option.toList_none, append_nil] at hplaces
    refine .trans (perm_iff_count.2 fun q => ?_) hplaces
    simp only [Tx.txComplete, Tx.places, hj, Option.toList_none, append_nil, count_append,
      count_erase, count_cons, beq_iff_eq]
    split_ifs <;> subst_vars <;> omega
  · have hfree : r ∉ s.txReqs := by
      rw [← count_eq_zero]
      omega
    rw [Tx.txComplete, erase_of_not_mem hfree]
    exact (h.next next hnext).trans (suffix_cons r s.txReqs)

theorem Inv.resetDrain (h : s.Inv) (hoff : s.reset.off = true) {next : TxResetPc}
    (hc : (s.resetDrain next).Controlled) : (s.resetDrain next).Inv := by
  rw [resetDrain_of_nil (h.active_nil hoff)] at hc ⊢
  exact ⟨hc, h.places, h.next⟩

/-- **The invariant is kept by every step that loses no completion.** -/
theorem Inv.step (h : s.Inv) (hC : NoLostAdd s a) (hs : TxTrans maxpacket s a s') : s'.Inv := by
  have hc : s'.Controlled := h.toControlled.step hs
  cases hs with
  | write hpc => exact h.write hpc _ _ _ hc
  | wake hpc =>
    exact h.of_places hc (by rw [hpc]; rfl) rfl rfl (by simp [Tx.places, hpc, TxPc.heldReq])
  | next hpc => exact h.writeNext hpc hc
  | copyFromUser hpc => exact h.writeCopy hpc _ hc
  | putBack hpc =>
    have hsame := Option.some.inj ((congrArg TxPc.next hpc).symm.trans hC)
    subst hsame
    exact h.put_back (by rw [hpc]; rfl) (by rw [hpc]; rfl) hc
  | copied hpc => exact h.writeCopied hpc hc
  | queueErr hpc => exact h.put_back (by rw [hpc]; rfl) (by rw [hpc]; rfl) hc
  | queueOk hpc => exact h.queueOk hpc hc
  | listAdd hpc => exact h.listAdd hpc hc
  | complete hr hlock => exact h.txComplete hr hlock hc
  | disable | disabled | setReset | enable | enableNull | enableTest =>
    exact ⟨hc, h.places, h.next⟩
  | drain hreset | drainAgain hreset =>
    exact h.resetDrain (by simp [hreset, TxResetPc.off]) hc

theorem Inv.conserved (h : s.Inv) (hlock : s.pc.locked = false) : s.Conserved := by
  obtain ⟨⟨hactive, -, -⟩, hplaces, -⟩ := h
  rw [justQueued_of_unlocked hlock, Option.toList_none, append_nil] at hplaces hactive
  refine ⟨fun r hr => ?_, hactive⟩
  rw [hplaces.count_eq, count_eq_one_of_mem nodup_range (mem_range.2 hr)]

/-- A completion inside the `list_add` of a fault is in no place after it. -/
theorem Inv.noLostAdd (h : s.Inv) {w : WriteCall} {r : ℕ} {next : List ℕ}
    (hpc : s.pc = .putBack w r next) (hcons : (s.writePutBack w r next).Conserved) :
    next = s.txReqs := by
  obtain ⟨added, hadded⟩ := h.next next (by rw [hpc]; rfl)
  cases added with
  | nil => exact hadded
  | cons q added =>
    have hcount : s.txReqs.count q = 1 + added.count q + next.count q := by
      rw [← hadded]
      simp only [cons_append, count_cons_self, count_append]
      omega
    have hone := h.count_le_one q
    have hheld : s.pc.heldReq.toList.count q = [r].count q := by rw [hpc]; rfl
    have hlt : q < qlen := by
      have hmem : q ∈ s.places ++ s.pc.justQueued.toList := by
        refine count_pos_iff.1 ?_
        simp only [Tx.places, count_append]
        omega
      exact mem_range.1 (h.places.mem_iff.1 hmem)
    have hlost := hcons.once q hlt
    simp only [Tx.writePutBack, ret, Tx.places, TxPc.heldReq, Option.toList_none, append_nil,
      count_append] at hlost
    rw [← singleton_append, count_append] at hlost
    omega

end Tx

/-! ## Whole runs -/

/-- Two requests are sent, a copy faults, one request completes behind its `list_add`, and a soft
reset meets the next write at its copy. -/
def txResetRun : List TxAct :=
  [.write 0 [1, 2, 3] false, .next, .copyFromUser false, .copied, .queue false, .listAdd, .next,
    .write 0 [4] false, .next, .copyFromUser false, .copied, .queue false, .listAdd, .next,
    .write 0 [6] false, .next, .copyFromUser true, .putBack, .complete 9, .write 0 [5] true, .next,
    .disable, .complete 8, .disabled, .setReset, .copyFromUser false]

/-- A request is sent, and completes inside the `list_add` of the next write, whose copy faults. -/
def lostRun : List TxAct :=
  [.write 0 [1] false, .next, .copyFromUser false, .copied, .queue false, .listAdd, .next,
    .write 0 [2] false, .next, .copyFromUser true, .complete 9, .putBack]

end LddExample.ScaleUsb
