import LddExample.ScaleUsb.Tx

/-!
# What `scale_write` reports

* `Reports`: the accepted requests hold, in order, the first bytes of the caller's buffer, and the
  return value is their number; it is negative only if nothing was accepted.
* `Tx.Sends`: what is sent, the request in hand and the rest make up the caller's buffer.
* `NoLateAbort`: a write is not given up for a reset or by `usb_ep_queue` after one of its requests
  was accepted.
* **`reports_iff_noLateAbort`**: every write of a run reports what it sent exactly when no write is
  given up late.
-/

namespace LddExample.ScaleUsb

/-- The bytes that `usb_ep_queue` accepted during the call. -/
def WriteCall.sent (w : WriteCall) : List UInt8 :=
  w.accepted.flatMap TxReq.buf

/-- A request with at least one byte and at most `USB_BUFSIZE`. -/
def TxReq.IsChunk (q : TxReq) : Prop :=
  0 < q.length ∧ q.length ≤ usbBufsize ∧ q.buf.length = q.length

/-- **The call reports what it sent.** -/
structure Reports (w : WriteCall) (value : ℤ) : Prop where
  chunks : ∀ q ∈ w.accepted, q.IsChunk
  first : w.sent <+: w.whole
  sent : w.sent ≠ [] → value = w.sent.length
  pos : 0 < value → value = w.sent.length
  neg : value < 0 → w.accepted = []

/-- The requests that were accepted from the running write. -/
def TxPc.accepted : TxPc → List TxReq
  | .idle => []
  | .sleeping w | .stuck w | .loop w | .copy w _ | .putBack w _ _ | .copied w _ | .queue w _
  | .queued w _ => w.accepted

/-- The step does not give up a write that has sent something. -/
def NoLateAbort (s : Tx) : TxAct → Prop
  | .copied => s.resetScale = true → s.pc.accepted = []
  | .queue true => s.pc.accepted = []
  | _ => True

instance : ∀ s a, Decidable (NoLateAbort s a)
  | s, .copied => inferInstanceAs (Decidable (s.resetScale = true → s.pc.accepted = []))
  | s, .queue true => inferInstanceAs (Decidable (s.pc.accepted = []))
  | _, .queue false | _, .write _ _ _ | _, .wake _ | _, .next | _, .copyFromUser _ | _, .putBack
  | _, .listAdd | _, .complete _ | _, .disable | _, .disabled | _, .setReset | _, .drain
  | _, .enable _ | _, .enableTest _ => isTrue trivial

/-! ## The running write -/

/-- The call `w` with the bytes `held` in the buffer of its request. -/
structure Sending (w : WriteCall) (held : List UInt8) : Prop where
  chunks : ∀ q ∈ w.accepted, q.IsChunk
  whole : w.sent ++ held ++ w.buf = w.whole
  count : w.bytesCopied = w.sent.length + held.length

namespace Sending

variable {w : WriteCall} {held : List UInt8}

theorem start (buf : List UInt8) : Sending ⟨buf, buf, 0, []⟩ [] where
  chunks := fun _ hq => nomatch hq
  whole := rfl
  count := rfl

theorem sent_eq_nil (h : Sending w held) : w.sent = [] ↔ w.accepted = [] := by
  rw [WriteCall.sent, List.flatMap_eq_nil_iff]
  constructor
  · intro hnil
    refine List.eq_nil_iff_forall_not_mem.2 fun q hq => ?_
    obtain ⟨hpos, -, hlen⟩ := h.chunks q hq
    rw [hnil q hq, List.length_nil] at hlen
    omega
  · rintro hnil q hq
    rw [hnil] at hq
    cases hq

theorem first (h : Sending w held) : w.sent <+: w.whole :=
  ⟨held ++ w.buf, by rw [← List.append_assoc, h.whole]⟩

theorem reports (h : Sending w []) : Reports w w.bytesCopied where
  chunks := h.chunks
  first := h.first
  sent := fun _ => by rw [h.count]; rfl
  pos := fun _ => by rw [h.count]; rfl
  neg := fun hneg => by omega

/-- An error is right only if nothing was accepted. -/
theorem reports_of_neg (h : Sending w held) {value : ℤ} (hneg : value < 0) :
    Reports w value ↔ w.accepted = [] := by
  constructor
  · exact fun hr => hr.neg hneg
  · intro hnil
    exact ⟨h.chunks, h.first, fun hs => absurd (h.sent_eq_nil.2 hnil) hs, fun hpos => by omega,
      fun _ => hnil⟩

theorem reports_end (h : Sending w []) :
    Reports w (if w.bytesCopied ≠ 0 then w.bytesCopied else -eagain) := by
  split
  next => exact h.reports
  next h0 =>
    have hsent : w.sent = [] := by
      have := h.count
      rw [List.length_nil] at this
      exact List.eq_nil_of_length_eq_zero (by omega)
    exact (h.reports_of_neg (by decide)).2 (h.sent_eq_nil.1 hsent)

theorem copy (h : Sending w []) :
    Sending { w with
      bytesCopied := w.bytesCopied + Tx.size w
      buf := w.buf.drop (Tx.size w) } (w.buf.take (Tx.size w)) where
  chunks := h.chunks
  whole := by
    have := h.whole
    rw [List.append_nil] at this
    rw [List.append_assoc, List.take_append_drop]
    exact this
  count := by
    have hle : Tx.size w ≤ w.buf.length := by
      rw [Tx.size]
      split <;> omega
    have := h.count
    rw [List.length_nil] at this
    rw [List.length_take]
    change w.bytesCopied + Tx.size w = w.sent.length + _
    omega

theorem queue {q : TxReq} (h : Sending w q.buf) (hq : q.IsChunk) :
    Sending { w with accepted := w.accepted ++ [q] } [] := by
  have hsent : WriteCall.sent { w with accepted := w.accepted ++ [q] } = w.sent ++ q.buf := by
    simp [WriteCall.sent]
  refine ⟨?_, ?_, ?_⟩
  · intro p hp
    obtain hp | hp := List.mem_append.1 hp
    · exact h.chunks p hp
    · rw [List.mem_singleton.1 hp]
      exact hq
  · rw [hsent, List.append_nil]
    exact h.whole
  · rw [hsent, List.length_append]
    exact h.count

end Sending

/-- The invariant of the running write. -/
def Tx.Sends (s : Tx) : Prop :=
  match s.pc with
  | .idle => True
  | .sleeping w | .stuck w | .loop w | .queued w _ => Sending w []
  | .putBack w _ _ => Sending w [] ∧ w.buf ≠ []
  | .copy w r => Sending w [] ∧ w.buf ≠ [] ∧ (s.req r).length = Tx.size w
  | .copied w r | .queue w r => Sending w (s.req r).buf ∧ (s.req r).IsChunk

namespace Tx

variable {maxpacket : ℕ} {s s' : Tx} {a : TxAct}

theorem Sends.congr (h : s.Sends) (hpc : s'.pc = s.pc) (hreq : s'.req = s.req) : s'.Sends := by
  rw [Sends, hpc, hreq]
  exact h

theorem Sends.write (interface : ℤ) (buf : List UInt8) (nonblock : Bool) :
    (s.write interface buf nonblock).Sends := by
  simp only [Tx.write, ret]
  split_ifs
  · trivial
  · trivial
  · exact Sending.start buf
  · exact Sending.start buf
  · exact Sending.start buf

theorem Sends.writeNext {w : WriteCall} (h : Sending w []) : (s.writeNext maxpacket w).Sends := by
  unfold Tx.writeNext
  split
  · trivial
  · split
    next => trivial
    next hlen =>
      refine ⟨h, fun hnil => hlen (by rw [hnil]; rfl), ?_⟩
      simp only [if_true]

theorem Sends.writeCopy {w : WriteCall} {r : ℕ} (h : Sending w []) (hbuf : w.buf ≠ [])
    (hlen : (s.req r).length = size w) (fault : Bool) : (s.writeCopy w r fault).Sends := by
  unfold Tx.writeCopy
  split_ifs
  · exact ⟨h, hbuf⟩
  · have hpos : 0 < w.buf.length := List.length_pos_iff.2 hbuf
    have hsize : 0 < size w ∧ size w ≤ usbBufsize ∧ size w ≤ w.buf.length := by
      rw [size, usbBufsize]
      split <;> omega
    simp only [Sends, if_true]
    refine ⟨h.copy, ?_⟩
    refine ⟨?_, ?_, ?_⟩
    · exact hlen ▸ hsize.1
    · exact hlen ▸ hsize.2.1
    · change (w.buf.take (size w)).length = (s.req r).length
      rw [List.length_take, hlen]
      omega

theorem Sends.writeCopied {w : WriteCall} {r : ℕ} (h : Sending w (s.req r).buf)
    (hr : (s.req r).IsChunk) : (s.writeCopied w r).Sends := by
  unfold Tx.writeCopied
  split_ifs
  · trivial
  · exact ⟨h, hr⟩

/-- **A step keeps the invariant of the running write.** -/
theorem Sends.step (h : s.Sends) (hstep : txStep maxpacket s a = some s') : s'.Sends := by
  cases txTrans_of_txStep hstep with
  | write => exact Sends.write _ _ _
  | wake hpc =>
    rw [Sends, hpc] at h
    exact h
  | next hpc =>
    rw [Sends, hpc] at h
    exact Sends.writeNext h
  | copyFromUser hpc =>
    rw [Sends, hpc] at h
    exact Sends.writeCopy h.1 h.2.1 h.2.2 _
  | copied hpc =>
    rw [Sends, hpc] at h
    exact Sends.writeCopied h.1 h.2
  | putBack | queueErr => trivial
  | queueOk hpc =>
    rw [Sends, hpc] at h
    exact h.1.queue h.2
  | listAdd hpc =>
    rw [Sends, hpc] at h
    exact h
  | drain =>
    exact h.congr (by unfold resetDrain; split <;> rfl) (by unfold resetDrain; split <;> rfl)
  | drainAgain =>
    exact h.congr (by unfold resetDrain; split <;> rfl) (by unfold resetDrain; split <;> rfl)
  | complete | disable | disabled | setReset | enable | enableNull | enableTest =>
    exact h.congr rfl rfl

/-! ## Returned writes -/

/-- Every write that returned reports what it sent. -/
def AllReport (s : Tx) : Prop :=
  ∀ c ∈ s.returned, Reports c.1 c.2

theorem allReport_ret {w : WriteCall} {value : ℤ} :
    (s.ret w value).AllReport ↔ s.AllReport ∧ Reports w value := by
  simp only [AllReport, ret, List.mem_append, List.mem_singleton]
  constructor
  · exact fun h => ⟨fun c hc => h c (.inl hc), h (w, value) (.inr rfl)⟩
  · rintro ⟨h, hw⟩ c (hc | rfl)
    · exact h c hc
    · exact hw

theorem AllReport.write (h : s.AllReport) (interface : ℤ) (buf : List UInt8) (nonblock : Bool) :
    (s.write interface buf nonblock).AllReport := by
  have heinval : Reports ⟨buf, buf, 0, []⟩ (-einval) :=
    ((Sending.start buf).reports_of_neg (by decide)).2 rfl
  simp only [Tx.write]
  split_ifs
  · exact allReport_ret.2 ⟨h, heinval⟩
  · exact allReport_ret.2 ⟨h, heinval⟩
  · exact h
  · exact h
  · exact h

theorem returned_step (hstep : txStep maxpacket s a = some s') :
    ∃ l, s'.returned = s.returned ++ l := by
  cases txTrans_of_txStep hstep with
  | write => simp only [Tx.write, ret]; split_ifs <;> simp
  | next =>
    unfold Tx.writeNext
    split
    · exact ⟨_, rfl⟩
    · split
      · exact ⟨_, rfl⟩
      · exact ⟨[], (List.append_nil _).symm⟩
  | copyFromUser => unfold Tx.writeCopy; split_ifs <;> simp
  | copied => unfold Tx.writeCopied; split_ifs <;> simp [ret]
  | putBack | queueErr => exact ⟨_, rfl⟩
  | drain => unfold resetDrain; split <;> simp
  | drainAgain => unfold resetDrain; split <;> simp
  | wake | queueOk | listAdd | complete | disable | disabled | setReset | enable | enableNull
  | enableTest => exact ⟨[], (List.append_nil _).symm⟩

/-- **A step keeps the reports right exactly when it gives up no write late.** -/
theorem allReport_step (hs : s.Sends) (h : s.AllReport) (hstep : txStep maxpacket s a = some s') :
    s'.AllReport ↔ NoLateAbort s a := by
  cases txTrans_of_txStep hstep with
  | write => exact iff_of_true (h.write _ _ _) trivial
  | next hpc =>
    rw [Sends, hpc] at hs
    have hend := allReport_ret.2 ⟨h, hs.reports_end⟩
    refine iff_of_true ?_ trivial
    unfold Tx.writeNext
    split
    · exact hend
    · split
      · exact hend
      · exact h
  | copyFromUser =>
    refine iff_of_true ?_ trivial
    unfold Tx.writeCopy
    split_ifs <;> exact h
  | putBack hpc =>
    rw [Sends, hpc] at hs
    exact iff_of_true (allReport_ret.2 ⟨h, hs.1.reports⟩) trivial
  | copied hpc =>
    rw [Sends, hpc] at hs
    rw [NoLateAbort, hpc, TxPc.accepted, Tx.writeCopied]
    split_ifs with hreset
    · rw [allReport_ret, hs.1.reports_of_neg (by decide)]
      exact ⟨fun hr _ => hr.2, fun hnil => ⟨h, hnil hreset⟩⟩
    · exact iff_of_true h fun hr => absurd hr hreset
  | queueErr hpc =>
    rw [Sends, hpc] at hs
    rw [NoLateAbort, hpc, TxPc.accepted, Tx.queueErr, allReport_ret,
      hs.1.reports_of_neg (by decide)]
    exact and_iff_right h
  | drain | drainAgain =>
    refine iff_of_true ?_ trivial
    unfold resetDrain
    split <;> exact h
  | wake | queueOk | listAdd | complete | disable | disabled | setReset | enable | enableNull
  | enableTest => exact iff_of_true h trivial

theorem AllReport.of_step (hstep : txStep maxpacket s a = some s') (h : s'.AllReport) :
    s.AllReport := by
  obtain ⟨l, hl⟩ := returned_step hstep
  intro c hc
  exact h c (by rw [hl]; exact List.mem_append_left l hc)

end Tx

/-- **Every write of a run reports what it sent exactly when no write is given up late.** -/
theorem reports_iff_noLateAbort (maxpacket : ℕ) (enabled : Bool) (acts : List TxAct) (s : Tx)
    (h : Lts.exec (txStep maxpacket) (Tx.bind enabled) acts = some s) :
    (∀ c ∈ s.returned, Reports c.1 c.2) ↔
      Lts.Meets (txStep maxpacket) NoLateAbort (Tx.bind enabled) acts := by
  have hs : (Tx.bind enabled).Sends := trivial
  have hbind : (Tx.bind enabled).AllReport := fun _ hc => nomatch hc
  exact Lts.exec_iff_meets (I := Tx.Sends) (P := Tx.AllReport) (fun _ _ _ => Tx.Sends.step)
    (fun _ _ _ => Tx.AllReport.of_step) (fun _ _ _ => Tx.allReport_step) hs hbind h

/-- A write of 1024 bytes, and one of 513 bytes whose second copy faults. -/
def writeChunks : List TxAct :=
  [.write 0 (List.replicate 1024 7) false, .next, .copyFromUser false, .copied, .queue false,
    .listAdd, .next, .copyFromUser false, .copied, .queue false, .listAdd, .next,
    .write 0 (List.replicate 513 7) true, .next, .copyFromUser false, .copied, .queue false,
    .listAdd, .next, .copyFromUser true, .complete 9, .putBack]

/-- The lengths of the requests that the calls have sent, with their return values. -/
def Tx.sentLengths (s : Tx) : List (List ℕ × ℤ) :=
  s.returned.map fun c => (c.1.accepted.map TxReq.length, c.2)

theorem exec_writeChunks :
    ∃ s, Lts.exec (txStep 64) (Tx.bind true) writeChunks = some s ∧
      s.sentLengths = [([512, 512], 1024), ([512], 512)] :=
  Option.map_eq_some_iff.1 (by decide +kernel)

theorem reports_writeChunks :
    ∃ s, Lts.exec (txStep 64) (Tx.bind true) writeChunks = some s ∧
      s.sentLengths = [([512, 512], 1024), ([512], 512)] ∧ ∀ c ∈ s.returned, Reports c.1 c.2 := by
  obtain ⟨s, hs, hsent⟩ := exec_writeChunks
  exact ⟨s, hs, hsent, (reports_iff_noLateAbort 64 true writeChunks s hs).2 (by decide +kernel)⟩

/-- A write of 513 bytes whose second request is refused after the first one was accepted. -/
def writeRefused : List TxAct :=
  [.write 0 (List.replicate 513 7) false, .next, .copyFromUser false, .copied, .queue false,
    .listAdd, .next, .copyFromUser false, .copied, .queue true]

/-- The write returns `-EAGAIN` although 512 bytes were sent. -/
theorem eagain_after_sent :
    ∃ s, Lts.exec (txStep 64) (Tx.bind true) writeRefused = some s ∧
      ¬∀ c ∈ s.returned, Reports c.1 c.2 := by
  have hrun : (Lts.exec (txStep 64) (Tx.bind true) writeRefused).map
      (fun s => s.returned.map fun c => (c.2, c.1.accepted.length)) = some [(-11, 1)] := by
    decide +kernel
  obtain ⟨s, hs, hret⟩ := Option.map_eq_some_iff.1 hrun
  refine ⟨s, hs, fun h => ?_⟩
  obtain ⟨c, hc, hval⟩ : ∃ c ∈ s.returned, (c.2, c.1.accepted.length) = (-11, 1) :=
    List.mem_map.1 (by rw [hret]; exact List.mem_singleton.2 rfl)
  rw [Prod.mk.injEq] at hval
  have hnil : c.1.accepted = [] := (h c hc).neg (by omega)
  rw [hnil] at hval
  exact absurd hval.2 (by decide)

end LddExample.ScaleUsb
