import LddExample.ScaleUsb.WriteReport

/-!
# The end of a transfer

A bulk transfer ends with the first packet that is shorter than `maxpacket`. `scale_write` sets
`req->zero` on a request from the bytes that are left when it takes the request.

* `TxReq.GoesOn`, `TxReq.Ends`: a request after which the host waits for more, and one after which
  it does not.
* `TxReq.packets`: the packets on the wire.
* `Ended`: a write that sent all its bytes ends with its last request, any other one does not end.
* **`writes_ended`**: so it is for every write of a run, when `maxpacket` divides `USB_BUFSIZE`.
-/

namespace LddExample.ScaleUsb

/-- Full packets and no empty one behind them. -/
def TxReq.GoesOn (maxpacket : ℕ) (q : TxReq) : Prop :=
  q.length % maxpacket = 0 ∧ q.zero = false

/-- A short packet, or full ones and an empty one. -/
def TxReq.Ends (maxpacket : ℕ) (q : TxReq) : Prop :=
  (q.length % maxpacket ≠ 0 ∧ q.zero = false) ∨ (q.length % maxpacket = 0 ∧ q.zero = true)

/-- The lengths of the packets that the controller makes of a request. -/
def TxReq.packets (maxpacket : ℕ) (q : TxReq) : List ℕ :=
  List.replicate (q.length / maxpacket) maxpacket ++
    if q.length % maxpacket ≠ 0 then [q.length % maxpacket] else if q.zero then [0] else []

/-- The packets of a write. -/
def WriteCall.packets (maxpacket : ℕ) (w : WriteCall) : List ℕ :=
  w.accepted.flatMap (TxReq.packets maxpacket)

/-- **The transfer ends with the write.** -/
structure Ended (maxpacket : ℕ) (w : WriteCall) : Prop where
  /-- all bytes are queued: only the last request ends the transfer -/
  all : w.sent = w.whole → ∃ front last, w.accepted = front ++ [last] ∧
    (∀ q ∈ front, q.GoesOn maxpacket) ∧ last.Ends maxpacket
  /-- some bytes are not: none does -/
  part : w.sent ≠ w.whole → ∀ q ∈ w.accepted, q.GoesOn maxpacket
  /-- the host sees one short packet, at the end -/
  packets : w.sent = w.whole → ∃ n short, short < maxpacket ∧
    w.packets maxpacket = List.replicate n maxpacket ++ [short]

/-! ## Packets -/

section Packets

variable {maxpacket : ℕ}

theorem TxReq.GoesOn.packets_eq {q : TxReq} (h : q.GoesOn maxpacket) :
    q.packets maxpacket = List.replicate (q.length / maxpacket) maxpacket := by
  simp [packets, h.1, h.2]

theorem TxReq.Ends.packets_eq {q : TxReq} (h : q.Ends maxpacket) (hpos : 0 < maxpacket) :
    ∃ short < maxpacket,
      q.packets maxpacket = List.replicate (q.length / maxpacket) maxpacket ++ [short] := by
  obtain ⟨hlen, hzero⟩ | ⟨hlen, hzero⟩ := h
  · exact ⟨q.length % maxpacket, Nat.mod_lt _ hpos, by simp [packets, hlen]⟩
  · exact ⟨0, hpos, by simp [packets, hlen, hzero]⟩

/-- Requests that go on make full packets. -/
theorem packets_of_goesOn {l : List TxReq} (h : ∀ q ∈ l, q.GoesOn maxpacket) :
    ∃ n, l.flatMap (TxReq.packets maxpacket) = List.replicate n maxpacket := by
  induction l with
  | nil => exact ⟨0, rfl⟩
  | cons q l ih =>
    obtain ⟨n, hn⟩ := ih fun p hp => h p (List.mem_cons_of_mem _ hp)
    refine ⟨q.length / maxpacket + n, ?_⟩
    rw [List.flatMap_cons, hn, (h q List.mem_cons_self).packets_eq, List.replicate_append_replicate]

theorem packets_of_ends {front : List TxReq} {last : TxReq} (hpos : 0 < maxpacket)
    (hfront : ∀ q ∈ front, q.GoesOn maxpacket) (hlast : last.Ends maxpacket) :
    ∃ n short, short < maxpacket ∧
      (front ++ [last]).flatMap (TxReq.packets maxpacket) =
        List.replicate n maxpacket ++ [short] := by
  obtain ⟨n, hn⟩ := packets_of_goesOn hfront
  obtain ⟨short, hshort, hpackets⟩ := hlast.packets_eq hpos
  refine ⟨n + last.length / maxpacket, short, hshort, ?_⟩
  rw [List.flatMap_append, hn, List.flatMap_singleton, hpackets, ← List.append_assoc,
    List.replicate_append_replicate]

end Packets

/-! ## The running write -/

/-- The requests accepted so far, with `buf` left to send. -/
def Ending (maxpacket : ℕ) (w : WriteCall) : Prop :=
  if w.buf = [] then
    ∃ front last, w.accepted = front ++ [last] ∧ (∀ q ∈ front, q.GoesOn maxpacket) ∧
      last.Ends maxpacket
  else ∀ q ∈ w.accepted, q.GoesOn maxpacket

/-- The request in hand, with `rest` left to send behind it. -/
def Flagged (maxpacket : ℕ) (rest : List UInt8) (q : TxReq) : Prop :=
  if rest = [] then q.Ends maxpacket else q.GoesOn maxpacket

/-- The invariant of the running write. -/
def Tx.Flags (maxpacket : ℕ) (s : Tx) : Prop :=
  match s.pc with
  | .idle => True
  | .sleeping w | .stuck w | .loop w | .queued w _ => Ending maxpacket w
  | .copy w r =>
    (∀ q ∈ w.accepted, q.GoesOn maxpacket) ∧
      Flagged maxpacket (w.buf.drop (Tx.size w)) (s.req r)
  | .putBack w _ _ => ∀ q ∈ w.accepted, q.GoesOn maxpacket
  | .copied w r | .queue w r =>
    (∀ q ∈ w.accepted, q.GoesOn maxpacket) ∧ Flagged maxpacket w.buf (s.req r)

theorem Flagged.accept {maxpacket : ℕ} {w : WriteCall} {q : TxReq}
    (hfront : ∀ p ∈ w.accepted, p.GoesOn maxpacket) (h : Flagged maxpacket w.buf q) :
    Ending maxpacket { w with accepted := w.accepted ++ [q] } := by
  rw [Flagged] at h
  rw [Ending]
  split_ifs at h ⊢
  · exact ⟨w.accepted, q, rfl, hfront, h⟩
  · intro p hp
    obtain hp | hp := List.mem_append.1 hp
    · exact hfront p hp
    · rw [List.mem_singleton.1 hp]
      exact h

namespace Tx

variable {maxpacket : ℕ} {s s' : Tx} {a : TxAct}

theorem Flags.congr (h : s.Flags maxpacket) (hpc : s'.pc = s.pc) (hreq : s'.req = s.req) :
    s'.Flags maxpacket := by
  rw [Flags, hpc, hreq]
  exact h

theorem Flags.write (interface : ℤ) (buf : List UInt8) (nonblock : Bool) :
    (s.write interface buf nonblock).Flags maxpacket := by
  simp only [Tx.write, ret]
  split_ifs with hi hlen
  · trivial
  · trivial
  all_goals
    have hbuf : buf ≠ [] := fun hnil => hlen (by rw [hnil]; rfl)
    simp [Flags, Ending, hbuf]

theorem drop_size_eq_nil {w : WriteCall} :
    w.buf.drop (size w) = [] ↔ ¬w.buf.length > size w := by
  rw [List.drop_eq_nil_iff]
  omega

/-- Only the last request of a write is shorter than `USB_BUFSIZE`. -/
theorem size_of_more {w : WriteCall} (h : w.buf.length > size w) : size w = usbBufsize := by
  unfold size at h ⊢
  split_ifs at h ⊢ <;> omega

theorem size_of_last {w : WriteCall} (h : ¬w.buf.length > size w) : size w = w.buf.length := by
  unfold size at h ⊢
  split_ifs at h ⊢ <;> omega

/-- **The request is taken with the right flag.** -/
theorem Flags.writeNext (hdvd : maxpacket ∣ usbBufsize) {w : WriteCall}
    (h : Ending maxpacket w) : (s.writeNext maxpacket w).Flags maxpacket := by
  unfold Tx.writeNext
  split
  · trivial
  next r rest hreqs =>
    split
    next => trivial
    next hlen =>
      have hbuf : w.buf ≠ [] := fun hnil => hlen (by rw [hnil]; rfl)
      rw [Ending, if_neg hbuf] at h
      refine ⟨h, ?_⟩
      simp only [if_true]
      by_cases hmore : w.buf.length > size w
      · rw [Flagged, if_neg (fun hnil => drop_size_eq_nil.1 hnil hmore)]
        rw [if_pos hmore, size_of_more hmore]
        exact ⟨Nat.mod_eq_zero_of_dvd hdvd, rfl⟩
      · rw [Flagged, if_pos (drop_size_eq_nil.2 hmore)]
        rw [if_neg hmore, size_of_last hmore]
        by_cases hmod : w.buf.length % maxpacket = 0
        · exact .inr ⟨hmod, decide_eq_true hmod⟩
        · exact .inl ⟨hmod, decide_eq_false hmod⟩

theorem Flags.writeCopy {w : WriteCall} {r : ℕ} (hfront : ∀ q ∈ w.accepted, q.GoesOn maxpacket)
    (h : Flagged maxpacket (w.buf.drop (size w)) (s.req r)) (fault : Bool) :
    (s.writeCopy w r fault).Flags maxpacket := by
  unfold Tx.writeCopy
  split_ifs
  · trivial
  · refine ⟨hfront, ?_⟩
    simp only [if_true]
    exact h

theorem Flags.writeCopied {w : WriteCall} {r : ℕ} (hfront : ∀ q ∈ w.accepted, q.GoesOn maxpacket)
    (h : Flagged maxpacket w.buf (s.req r)) : (s.writeCopied w r).Flags maxpacket := by
  unfold Tx.writeCopied
  split_ifs
  · trivial
  · exact ⟨hfront, h⟩

/-- **A step keeps the flags right.** -/
theorem Flags.step (hdvd : maxpacket ∣ usbBufsize) (h : s.Flags maxpacket)
    (hstep : txStep maxpacket s a = some s') : s'.Flags maxpacket := by
  cases txTrans_of_txStep hstep with
  | write => exact Flags.write _ _ _
  | wake hpc =>
    rw [Flags, hpc] at h
    exact h
  | next hpc =>
    rw [Flags, hpc] at h
    exact Flags.writeNext hdvd h
  | copyFromUser hpc =>
    rw [Flags, hpc] at h
    exact Flags.writeCopy h.1 h.2 _
  | copied hpc =>
    rw [Flags, hpc] at h
    exact Flags.writeCopied h.1 h.2
  | putBack | queueErr => trivial
  | queueOk hpc =>
    rw [Flags, hpc] at h
    exact h.2.accept h.1
  | listAdd hpc =>
    rw [Flags, hpc] at h
    exact h
  | drain =>
    exact h.congr (by unfold resetDrain; split <;> rfl) (by unfold resetDrain; split <;> rfl)
  | drainAgain =>
    exact h.congr (by unfold resetDrain; split <;> rfl) (by unfold resetDrain; split <;> rfl)
  | complete | disable | disabled | setReset | enable | enableNull | enableTest =>
    exact h.congr rfl rfl

end Tx

/-! ## Returned writes -/

section Returned

variable {maxpacket : ℕ} {w : WriteCall} {held : List UInt8}

theorem Sending.sent_eq_whole (h : Sending w held) : w.sent = w.whole ↔ held = [] ∧ w.buf = [] := by
  rw [← h.whole, List.append_assoc, List.self_eq_append_right, List.append_eq_nil_iff]

theorem Sending.ended (h : Sending w []) (hpos : 0 < maxpacket) (hend : Ending maxpacket w) :
    Ended maxpacket w := by
  rw [Ending] at hend
  by_cases hbuf : w.buf = []
  · rw [if_pos hbuf] at hend
    have hall : w.sent = w.whole := h.sent_eq_whole.2 ⟨rfl, hbuf⟩
    obtain ⟨front, last, hacc, hfront, hlast⟩ := hend
    refine ⟨fun _ => ⟨front, last, hacc, hfront, hlast⟩, fun hne => absurd hall hne, fun _ => ?_⟩
    rw [WriteCall.packets, hacc]
    exact packets_of_ends hpos hfront hlast
  · rw [if_neg hbuf] at hend
    have hpart : w.sent ≠ w.whole := fun hall => hbuf (h.sent_eq_whole.1 hall).2
    exact ⟨fun hall => absurd hall hpart, fun _ => hend, fun hall => absurd hall hpart⟩

theorem Sending.ended_of_held (h : Sending w held) (hheld : held ≠ [])
    (hfront : ∀ q ∈ w.accepted, q.GoesOn maxpacket) : Ended maxpacket w := by
  have hpart : w.sent ≠ w.whole := fun hall => hheld (h.sent_eq_whole.1 hall).1
  exact ⟨fun hall => absurd hall hpart, fun _ => hfront, fun hall => absurd hall hpart⟩

theorem TxReq.IsChunk.buf_ne_nil {q : TxReq} (h : q.IsChunk) : q.buf ≠ [] := by
  intro hnil
  obtain ⟨hpos, -, hlen⟩ := h
  rw [hnil, List.length_nil] at hlen
  omega

end Returned

namespace Tx

variable {maxpacket : ℕ} {s s' : Tx} {a : TxAct}

/-- Every write that returned and was not empty is ended. -/
def AllEnded (maxpacket : ℕ) (s : Tx) : Prop :=
  ∀ c ∈ s.returned, c.1.whole ≠ [] → Ended maxpacket c.1

theorem AllEnded.ret {w : WriteCall} {value : ℤ} (h : s.AllEnded maxpacket)
    (hw : w.whole ≠ [] → Ended maxpacket w) : (s.ret w value).AllEnded maxpacket := by
  intro c hc
  obtain hc | hc := List.mem_append.1 hc
  · exact h c hc
  · rw [List.mem_singleton.1 hc]
    exact hw

theorem AllEnded.write (h : s.AllEnded maxpacket) (interface : ℤ) (buf : List UInt8)
    (nonblock : Bool) : (s.write interface buf nonblock).AllEnded maxpacket := by
  have hrefused : (⟨buf, buf, 0, []⟩ : WriteCall).whole ≠ [] →
      Ended maxpacket ⟨buf, buf, 0, []⟩ := by
    intro hbuf
    have hpart : WriteCall.sent ⟨buf, buf, 0, []⟩ ≠ buf := Ne.symm hbuf
    exact ⟨fun hall => absurd hall hpart, fun _ _ hq => (nomatch hq), fun hall => absurd hall hpart⟩
  simp only [Tx.write]
  split_ifs
  · exact h.ret hrefused
  · exact h.ret hrefused
  · exact h
  · exact h
  · exact h

/-- **A step keeps the returned writes ended.** -/
theorem AllEnded.step (hpos : 0 < maxpacket) (hs : s.Sends) (hf : s.Flags maxpacket)
    (h : s.AllEnded maxpacket) (hstep : txStep maxpacket s a = some s') :
    s'.AllEnded maxpacket := by
  cases txTrans_of_txStep hstep with
  | write => exact h.write _ _ _
  | next hpc =>
    rw [Sends, hpc] at hs
    rw [Flags, hpc] at hf
    unfold Tx.writeNext
    split
    · exact h.ret fun _ => hs.ended hpos hf
    · split
      · exact h.ret fun _ => hs.ended hpos hf
      · exact h
  | copyFromUser =>
    unfold Tx.writeCopy
    split_ifs <;> exact h
  | putBack hpc =>
    rw [Sends, hpc] at hs
    rw [Flags, hpc] at hf
    refine AllEnded.ret h fun _ => hs.1.ended hpos ?_
    rw [Ending, if_neg hs.2]
    exact hf
  | copied hpc =>
    rw [Sends, hpc] at hs
    rw [Flags, hpc] at hf
    unfold Tx.writeCopied
    split_ifs
    · exact AllEnded.ret h fun _ => hs.1.ended_of_held hs.2.buf_ne_nil hf.1
    · exact h
  | queueErr hpc =>
    rw [Sends, hpc] at hs
    rw [Flags, hpc] at hf
    exact AllEnded.ret h fun _ => hs.1.ended_of_held hs.2.buf_ne_nil hf.1
  | drain | drainAgain =>
    unfold resetDrain
    split <;> exact h
  | wake | queueOk | listAdd | complete | disable | disabled | setReset | enable | enableNull
  | enableTest => exact h

end Tx

/-- **Every write of a run ends its transfer exactly when it has queued all its bytes.** -/
theorem writes_ended (maxpacket : ℕ) (hdvd : maxpacket ∣ usbBufsize) (enabled : Bool)
    (acts : List TxAct) (s : Tx)
    (h : Lts.exec (txStep maxpacket) (Tx.bind enabled) acts = some s) :
    ∀ c ∈ s.returned, 1 ≤ c.1.whole.length → Ended maxpacket c.1 := by
  have hpos : 0 < maxpacket := Nat.pos_of_dvd_of_pos hdvd (by decide)
  have hinv : s.Sends ∧ s.Flags maxpacket ∧ s.AllEnded maxpacket := by
    refine Lts.exec_inv (I := fun t => t.Sends ∧ t.Flags maxpacket ∧ t.AllEnded maxpacket)
      ?_ ⟨trivial, trivial, fun _ hc => nomatch hc⟩ h
    rintro t a t' ⟨hs, hf, hall⟩ hstep
    exact ⟨hs.step hstep, hf.step hdvd hstep, hall.step hpos hs hf hstep⟩
  intro c hc hlen
  exact hinv.2.2 c hc (List.length_pos_iff.1 hlen)

theorem writes_ended_writeChunks :
    64 ∣ usbBufsize ∧ ∃ s, Lts.exec (txStep 64) (Tx.bind true) writeChunks = some s ∧
      s.sentLengths = [([512, 512], 1024), ([512], 512)] ∧
        ∀ c ∈ s.returned, 1 ≤ c.1.whole.length → Ended 64 c.1 := by
  obtain ⟨s, hs, hsent⟩ := exec_writeChunks
  exact ⟨by decide, s, hs, hsent, writes_ended 64 (by decide) true writeChunks s hs⟩

end LddExample.ScaleUsb
