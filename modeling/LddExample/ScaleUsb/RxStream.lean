import LddExample.ScaleUsb.RxConserve

/-!
# The received byte stream

The position of the readers in the stream of received bytes is split over the position saved in the
device (or taken by the running read), the list `rx_buffers` and the loop of the running read.

* `InStream`: no soft reset, and completions only with data and while `lock` is free.
* `Rx.pending`: what is received and not delivered, in the order of the stream.
* **`rx_stream`**: between the reads, what they delivered followed by what is pending is what was
  received, and each of them returned what it delivered.
-/

namespace LddExample.ScaleUsb

open List

/-- The steps of a run without soft resets, in which requests complete with data and while
`dev->lock` is free. -/
def InStream (s : Rx) : RxAct → Prop
  | .read len _ => 0 < len
  | .complete _ status payload => status = 0 ∧ 0 < payload.length ∧ s.pc.locked = false
  | .disable => False
  | _ => True

instance (s : Rx) : ∀ a, Decidable (InStream s a)
  | .read len _ => inferInstanceAs (Decidable (0 < len))
  | .complete _ status payload =>
    inferInstanceAs (Decidable (status = 0 ∧ 0 < payload.length ∧ s.pc.locked = false))
  | .disable => isFalse id
  | .poll | .queue _ | .listAdd | .setupDone | .take | .wake _ | .next | .copyToUser _ | .copied
  | .finish | .disabled | .resetCurrent | .clearBytes | .clearBuf | .setReset | .drain
  | .enable _ | .enableTest _ => isTrue trivial

/-- A read runs. -/
def Pc.reading : Pc → Bool
  | idle | setup .poll | queued _ .poll => false
  | _ => true

/-- What the reads that returned have delivered. -/
def Rx.delivered (s : Rx) : List UInt8 :=
  s.returned.flatMap Prod.fst

/-- What is received and not delivered while no read runs. -/
def Rx.pending (s : Rx) : List UInt8 :=
  s.currentRx.unread s.data ++ s.rxBuffers.flatMap s.data

/-- A read returns the number of bytes it delivered, or `-EAGAIN` without any. -/
def ReadResult (p : List UInt8 × ℤ) : Prop :=
  p.2 = if p.1 = [] then -eagain else p.1.length

theorem ReadResult.snoc {l : List (List UInt8 × ℤ)} (h : ∀ p ∈ l, ReadResult p)
    {q : List UInt8 × ℤ} (hq : ReadResult q) : ∀ p ∈ l ++ [q], ReadResult p := by
  intro p hp
  obtain hp | hp := mem_append.1 hp
  · exact h p hp
  · exact mem_singleton.1 hp ▸ hq

/-! ## Positions -/

/-- The position points into the received bytes of the current request. -/
def CurrentRx.At (data : ℕ → List UInt8) (c : CurrentRx) : Prop :=
  c = null ∨ ∃ r off, c.req = some r ∧ c.buf = some (r, off) ∧ c.bytes ≠ 0 ∧
    off + c.bytes = (data r).length

namespace CurrentRx

variable {data : ℕ → List UInt8} {c : CurrentRx}

@[simp] theorem unread_null : null.unread data = [] := rfl

theorem At.advance (h : c.At data) {size : ℕ} (hs : size < c.bytes) : (c.advance size).At data := by
  obtain rfl | ⟨r, off, hreq, hbuf, hb, hlen⟩ := h
  · simp [null] at hs
  · exact .inr ⟨r, off + size, hreq, by simp [CurrentRx.advance, hbuf],
      by simp only [CurrentRx.advance]; omega, by simp only [CurrentRx.advance]; omega⟩

theorem unread_eq {r off : ℕ} (hbuf : c.buf = some (r, off)) {size : ℕ} (hs : size ≤ c.bytes) :
    c.unread data = ((data r).drop off).take size ++ (c.advance size).unread data := by
  have hbytes : c.bytes = size + (c.bytes - size) := by omega
  simp only [unread, CurrentRx.advance, hbuf, Option.map_some]
  rw [hbytes, take_add, drop_drop]
  simp

theorem At.length_unread (h : c.At data) : (c.unread data).length = c.bytes := by
  obtain rfl | ⟨r, off, -, hbuf, -, hlen⟩ := h
  · rfl
  · simp only [unread, hbuf, length_take, length_drop]
    omega

theorem unread_eq_nil (h : c.bytes = 0) : c.unread data = [] := by
  simp only [unread, h]
  split <;> simp

theorem unread_whole (r : ℕ) :
    CurrentRx.unread data ⟨some r, (data r).length, some (r, 0)⟩ = data r := by
  simp [unread]

theorem At.exists_buf (h : c.At data) (hb : c.bytes ≠ 0) :
    ∃ r off, c.req = some r ∧ c.buf = some (r, off) ∧ off + c.bytes = (data r).length := by
  obtain rfl | ⟨r, off, hreq, hbuf, -, hlen⟩ := h
  · exact absurd rfl hb
  · exact ⟨r, off, hreq, hbuf, hlen⟩

variable {data' : ℕ → List UInt8}

theorem At.congr (h : c.At data) (hd : ∀ r, c.req = some r → data' r = data r) : c.At data' := by
  obtain rfl | ⟨r, off, hreq, hbuf, hb, hlen⟩ := h
  · exact .inl rfl
  · exact .inr ⟨r, off, hreq, hbuf, hb, by rw [hd r hreq, hlen]⟩

theorem At.unread_advance_congr (h : c.At data) (hd : ∀ r, c.req = some r → data' r = data r)
    (size : ℕ) : (c.advance size).unread data' = (c.advance size).unread data := by
  obtain rfl | ⟨r, off, hreq, hbuf, -, -⟩ := h
  · rfl
  · simp only [unread, CurrentRx.advance, hbuf, Option.map_some, hd r hreq]

theorem At.unread_congr (h : c.At data) (hd : ∀ r, c.req = some r → data' r = data r) :
    c.unread data' = c.unread data := by
  have := h.unread_advance_congr hd 0
  simpa [CurrentRx.advance] using this

end CurrentRx

/-! ## The running read -/

/-- What the running read has delivered. -/
def Pc.ubuf (pc : Pc) : List UInt8 :=
  match pc.readCall with
  | none => []
  | some l => l.ubuf

/-- The position of the running read. -/
def Pc.position : Pc → CurrentRx
  | sleeping l | loop l | copy l | oops l => l.currentRx
  | copied l size => l.currentRx.advance size
  | idle | setup _ | queued _ _ | take _ _ => .null

/-- The locals of a running read fit together. -/
structure ReadCall.Good (data : ℕ → List UInt8) (l : ReadCall) : Prop where
  at_ : l.currentRx.At data
  copied : l.bytesCopied = l.ubuf.length

/-- What the locals of a running read say about the data. -/
def Pc.Good (data : ℕ → List UInt8) : Pc → Prop
  | idle | setup _ | queued _ _ | take _ _ => True
  | sleeping l | loop l => l.Good data
  | copy l => l.Good data ∧ l.currentRx.bytes ≠ 0
  | copied l size => l.Good data ∧ l.currentRx.bytes ≠ 0 ∧ size ≤ l.currentRx.bytes
  | oops _ => False

section Congr

variable {data data' : ℕ → List UInt8} {pc : Pc}

theorem Pc.Good.congr (h : pc.Good data) (hd : ∀ r, pc.heldReq = some r → data' r = data r) :
    pc.Good data' := by
  cases pc with
  | idle | setup | queued | take => trivial
  | sleeping l | loop l => exact ⟨h.at_.congr hd, h.copied⟩
  | copy l | copied l => exact ⟨⟨h.1.at_.congr hd, h.1.copied⟩, h.2⟩
  | oops => exact h.elim

theorem Pc.Good.unread_congr (h : pc.Good data) (hd : ∀ r, pc.heldReq = some r → data' r = data r) :
    pc.position.unread data' = pc.position.unread data := by
  cases pc with
  | idle | setup | queued | take => rfl
  | sleeping l | loop l => exact h.at_.unread_congr hd
  | copy l => exact h.1.at_.unread_congr hd
  | copied l size => exact h.1.at_.unread_advance_congr hd size
  | oops => exact h.elim

end Congr

namespace Rx

variable {s : Rx} {l : ReadCall}

theorem good_readTake (h : s.currentRx.At s.data) (len : ℕ) (nonblock : Bool) :
    (s.readTake len nonblock).pc.Good s.data := by
  unfold Rx.readTake
  dsimp only
  split_ifs
  · trivial
  · exact ⟨h, rfl⟩
  · exact ⟨h, rfl⟩

theorem good_readNext (h : l.Good s.data) (hpc : s.pc = .loop l) :
    (s.readNext l).pc.Good s.data := by
  unfold Rx.readNext
  split_ifs with hb
  · split
    · rw [hpc]
      exact h
    next r rest hbuf =>
      dsimp only
      split_ifs with hlen
      · exact ⟨⟨.inr ⟨r, 0, rfl, rfl, hlen, Nat.zero_add _⟩, h.copied⟩, hlen⟩
      · exact h
  · exact ⟨h, hb⟩

theorem good_readCopy (h : l.Good s.data) (hb : l.currentRx.bytes ≠ 0) (left : ℕ) :
    (s.readCopy l left).pc.Good s.data := by
  obtain ⟨r, off, -, hbuf, hlen⟩ := h.at_.exists_buf hb
  unfold Rx.readCopy
  rw [hbuf]
  dsimp only
  set size := (if l.len > l.currentRx.bytes then l.currentRx.bytes else l.len) - left with hsz
  have hsize : size ≤ l.currentRx.bytes := by
    rw [hsz]
    split_ifs <;> omega
  refine ⟨⟨h.at_, ?_⟩, hb, hsize⟩
  simp only [length_append, length_take, length_drop, h.copied]
  omega

theorem good_readCopied (h : l.Good s.data) (hb : l.currentRx.bytes ≠ 0) (size : ℕ) :
    (s.readCopied l size).pc.Good s.data := by
  obtain ⟨r, off, hreq, -, -⟩ := h.at_.exists_buf hb
  unfold Rx.readCopied
  rw [hreq]
  split_ifs with hr hlt
  · trivial
  · exact ⟨h.at_.advance hlt, h.copied⟩
  · exact ⟨.inl rfl, h.copied⟩

end Rx

/-- **What has been delivered and what is still there is the stream of the host.** -/
structure Rx.Streaming (s : Rx) : Prop extends s.Inv where
  noReset : s.reset = .idle ∧ s.resetScale = false
  stream : s.delivered ++ (s.pc.ubuf ++ (s.pc.position.unread s.data ++ s.pending)) = s.completed
  saved : s.currentRx.At s.data
  running : s.pc.Good s.data
  results : ∀ p ∈ s.returned, ReadResult p

namespace Rx

variable {s s' : Rx} {a : RxAct}

theorem streaming_bind (en : Bool) : (Rx.bind en).Streaming where
  toInv := inv_bind en
  noReset := ⟨rfl, rfl⟩
  stream := rfl
  saved := .inl rfl
  running := trivial
  results := by simp [bind]

theorem Streaming.noRace (h : s.Streaming) (hC : InStream s a) : NoRace s a := by
  cases a with
  | complete => exact noRace_of_unlocked hC.2.2
  | take | finish => simp [NoRace, h.noReset.1]
  | _ => trivial

theorem Streaming.readTake (h : s.Streaming) {len : ℕ} {nonblock : Bool}
    (hpc : s.pc = .take len nonblock) (hinv : (s.readTake len nonblock).Inv) :
    (s.readTake len nonblock).Streaming := by
  have hstream := h.stream
  have hgood := good_readTake h.saved len nonblock
  simp only [hpc, Pc.ubuf, Pc.readCall, Pc.position, CurrentRx.unread_null, nil_append] at hstream
  unfold Rx.readTake at hinv hgood ⊢
  dsimp only at hinv hgood ⊢
  split_ifs at hinv hgood ⊢ with hnone hnb
  · have hun : s.pending = [] := by simp [Rx.pending, CurrentRx.unread_eq_nil hnone.1, hnone.2]
    refine ⟨hinv, h.noReset, ?_, .inl rfl, trivial, ?_⟩
    · rw [hun] at hstream
      simpa [ret, delivered, Rx.pending, Pc.ubuf, Pc.readCall, Pc.position, hnone.2] using hstream
    · exact ReadResult.snoc h.results rfl
  all_goals
    refine ⟨hinv, h.noReset, ?_, .inl rfl, hgood, h.results⟩
    simpa [delivered, Rx.pending, Pc.ubuf, Pc.readCall, Pc.position] using hstream

theorem Streaming.readNext (h : s.Streaming) {l : ReadCall} (hpc : s.pc = .loop l)
    (hinv : (s.readNext l).Inv) : (s.readNext l).Streaming := by
  have hstream := h.stream
  have hgood : l.Good s.data := by simpa [hpc, Pc.Good] using h.running
  have hnull : s.currentRx = .null := h.taken (by simp [hpc, Pc.readCall])
  simp only [hpc, Pc.ubuf, Pc.readCall, Pc.position, Rx.pending, hnull, CurrentRx.unread_null,
    nil_append] at hstream
  have hnext := good_readNext hgood hpc
  unfold Rx.readNext at hinv hnext ⊢
  split_ifs at hinv hnext ⊢ with hb
  · rw [CurrentRx.unread_eq_nil hb, nil_append] at hstream
    split at hinv
    · exact h
    · next r rest hbuf =>
      rw [hbuf] at hnext
      dsimp only at hinv hnext ⊢
      rw [hbuf, flatMap_cons] at hstream
      split_ifs at hinv hnext ⊢ with hlen
      · refine ⟨hinv, h.noReset, ?_, h.saved, hnext, h.results⟩
        simpa [delivered, Rx.pending, hnull, Pc.ubuf, Pc.readCall, Pc.position,
          CurrentRx.unread_whole] using hstream
      · refine ⟨hinv, h.noReset, ?_, h.saved, hnext, h.results⟩
        have hdata : s.data r = [] := by simpa using hlen
        simpa [delivered, Rx.pending, hnull, Pc.ubuf, Pc.readCall, Pc.position, hdata,
          CurrentRx.unread_eq_nil hb] using hstream
  · refine ⟨hinv, h.noReset, ?_, h.saved, hnext, h.results⟩
    simpa [delivered, Rx.pending, hnull, Pc.ubuf, Pc.readCall, Pc.position] using hstream

theorem Streaming.readCopy (h : s.Streaming) {l : ReadCall} (hpc : s.pc = .copy l) (left : ℕ)
    (hinv : (s.readCopy l left).Inv) : (s.readCopy l left).Streaming := by
  have hstream := h.stream
  obtain ⟨hgood, hb⟩ : l.Good s.data ∧ l.currentRx.bytes ≠ 0 := by
    simpa [hpc, Pc.Good] using h.running
  simp only [hpc, Pc.ubuf, Pc.readCall, Pc.position] at hstream
  have hcopy := good_readCopy hgood hb left
  obtain ⟨r, off, -, hbuf, -⟩ := hgood.at_.exists_buf hb
  unfold Rx.readCopy at hinv hcopy ⊢
  rw [hbuf] at hinv hcopy ⊢
  refine ⟨hinv, h.noReset, ?_, h.saved, hcopy, h.results⟩
  rw [CurrentRx.unread_eq hbuf hcopy.2.2] at hstream
  simpa [delivered, Rx.pending, Pc.ubuf, Pc.readCall, Pc.position] using hstream

theorem Streaming.readCopied (h : s.Streaming) {l : ReadCall} {size : ℕ}
    (hpc : s.pc = .copied l size) (hinv : (s.readCopied l size).Inv) :
    (s.readCopied l size).Streaming := by
  have hstream := h.stream
  obtain ⟨hgood, hb, hsize⟩ : l.Good s.data ∧ l.currentRx.bytes ≠ 0 ∧ size ≤ l.currentRx.bytes := by
    simpa [hpc, Pc.Good] using h.running
  have hcopied := good_readCopied hgood hb size
  obtain ⟨r, off, hreq, -, -⟩ := hgood.at_.exists_buf hb
  simp only [hpc, Pc.ubuf, Pc.readCall, Pc.position] at hstream
  unfold Rx.readCopied at hinv hcopied ⊢
  rw [if_neg (by simp [h.noReset.2]), hreq] at hinv hcopied ⊢
  split_ifs at hinv hcopied ⊢ with hlt
  · refine ⟨hinv, h.noReset, ?_, h.saved, hcopied, h.results⟩
    simpa [delivered, Rx.pending, Pc.ubuf, Pc.readCall, Pc.position] using hstream
  · refine ⟨hinv, h.noReset, ?_, h.saved, hcopied, h.results⟩
    have hnil : (l.currentRx.advance size).unread s.data = [] := by
      refine CurrentRx.unread_eq_nil ?_
      simp only [CurrentRx.advance]
      omega
    rw [hnil] at hstream
    simpa [delivered, Rx.pending, Pc.ubuf, Pc.readCall, Pc.position] using hstream

theorem Streaming.readReturn (h : s.Streaming) {l : ReadCall} (hpc : s.pc = .loop l)
    (hinv : (s.readReturn l).Inv) : (s.readReturn l).Streaming := by
  have hstream := h.stream
  have hgood : l.Good s.data := by simpa [hpc, Pc.Good] using h.running
  have hnull : s.currentRx = .null := h.taken (by simp [hpc, Pc.readCall])
  simp only [hpc, Pc.ubuf, Pc.readCall, Pc.position, Rx.pending, hnull, CurrentRx.unread_null,
    nil_append] at hstream
  refine ⟨hinv, h.noReset, ?_, hgood.at_, trivial, ?_⟩
  · simpa [Rx.readReturn, ret, delivered, Rx.pending, Pc.ubuf, Pc.readCall, Pc.position]
      using hstream
  · refine ReadResult.snoc h.results ?_
    simp only [ReadResult, hgood.copied, ne_eq, length_eq_zero_iff, ite_not]

theorem Streaming.complete (h : s.Streaming) {r : ℕ} (hr : r ∈ s.queued)
    (hj : s.pc.justQueued ≠ some r) {payload : List UInt8} (hlen : 0 < payload.length)
    (hinv : (s.complete r 0 payload).Inv) : (s.complete r 0 payload).Streaming := by
  obtain ⟨-, -, hbuf, -, -⟩ := h.count_of_queued hr hj
  rw [count_eq_zero] at hbuf
  have hdata := fun q => h.data_complete hr hj 0 payload (q := q)
  rw [complete_eq_of_data s r hlen, erase_of_not_mem hbuf] at hinv hdata ⊢
  have hd : ∀ q, s.currentRx.req = some q → (if q = r then payload else s.data q) = s.data q :=
    fun q hq => hdata q (.inr (.inl hq))
  have hp : ∀ q, s.pc.heldReq = some q → (if q = r then payload else s.data q) = s.data q :=
    fun q hq => hdata q (.inr (.inr hq))
  have hb : s.rxBuffers.flatMap (fun q => if q = r then payload else s.data q) =
      s.rxBuffers.flatMap s.data :=
    flatMap_congr fun q hq => hdata q (.inl hq)
  refine ⟨hinv, h.noReset, ?_, h.saved.congr hd, h.running.congr hp, h.results⟩
  simp only [delivered, Rx.pending, h.running.unread_congr hp, h.saved.unread_congr hd,
    flatMap_append, flatMap_cons, flatMap_nil, hb, if_true, append_nil]
  rw [← h.stream]
  simp only [delivered, Rx.pending, append_assoc]

/-- **A step keeps the stream.** -/
theorem Streaming.step (h : s.Streaming) (hC : InStream s a) (hs : RxTrans s a s') :
    s'.Streaming := by
  have hinv : s'.Inv := h.toInv.step (h.noRace hC) hs
  have hstream := h.stream
  cases hs with
  | readZero => exact absurd hC (Nat.lt_irrefl 0)
  | read hpc | poll hpc | queueOk hpc | listAdd hpc =>
    simp only [hpc, Pc.ubuf, Pc.readCall, Pc.position] at hstream
    exact ⟨hinv, ⟨h.noReset.1, by simp [h.noReset.2]⟩, hstream, h.saved, trivial, h.results⟩
  | @queueErr c hpc | @setupDone c hpc =>
    simp only [hpc, Pc.ubuf, Pc.readCall, Pc.position] at hstream
    cases c <;> exact ⟨hinv, h.noReset, hstream, h.saved, trivial, h.results⟩
  | take hpc => exact h.readTake hpc hinv
  | wake hpc =>
    have hgood := h.running
    simp only [hpc, Pc.ubuf, Pc.readCall, Pc.position, Pc.Good] at hstream hgood
    exact ⟨hinv, h.noReset, hstream, h.saved, hgood, h.results⟩
  | next hpc => exact h.readNext hpc hinv
  | copyToUser hpc => exact h.readCopy hpc _ hinv
  | copied hpc => exact h.readCopied hpc hinv
  | finish hpc => exact h.readReturn hpc hinv
  | complete hr =>
    have hj := h.noRace hC
    obtain ⟨rfl, hlen, -⟩ := hC
    exact h.complete hr hj hlen hinv
  | disable => exact hC.elim
  | disabled hreset | resetCurrent hreset | clearBytes hreset | clearBuf hreset | setReset hreset
  | drain hreset | enable hreset | enableNull hreset | enableTest hreset =>
    simp [h.noReset.1] at hreset

end Rx

/-- **The received byte stream.** -/
theorem rx_stream (en : Bool) (l : List RxAct) (s : Rx)
    (hC : Lts.Meets rxStep InStream (Rx.bind en) l) (h : Lts.exec rxStep (Rx.bind en) l = some s) :
    (s.pc.reading = false →
      s.delivered ++ (s.currentRx.unread s.data ++ s.rxBuffers.flatMap s.data) = s.completed ∧
        (s.currentRx.unread s.data).length = s.currentRx.bytes) ∧
      ∀ p ∈ s.returned, ReadResult p := by
  have hs : s.Streaming :=
    Lts.exec_induction (fun _ _ _ hi hc hs => hi.step hc (rxTrans_of_rxStep hs))
      (Rx.streaming_bind en) hC h
  refine ⟨fun hread => ⟨?_, hs.saved.length_unread⟩, hs.results⟩
  have hidle : s.pc.ubuf = [] ∧ s.pc.position = .null := by
    cases hpc : s.pc <;> simp_all [Pc.reading, Pc.ubuf, Pc.readCall, Pc.position]
  simpa [hidle.1, hidle.2, Rx.pending] using hs.stream

/-- A poll, a read of one byte, and a read over the end of a buffer that meets a fault. -/
def streamRun : List RxAct :=
  [.poll, .queue false, .listAdd, .queue false, .listAdd, .queue true, .complete 9 0 [65, 66],
    .read 1 false, .queue true, .take, .next, .copyToUser 0, .complete 8 0 [67, 68, 69], .copied,
    .finish, .read 3 true, .queue true, .take, .next, .copyToUser 0, .copied, .next,
    .copyToUser 1, .copied, .next, .copyToUser 0, .copied, .finish]

theorem rx_stream_streamRun :
    ∃ s, Lts.exec rxStep (Rx.bind true) streamRun = some s ∧
      s.returned = [([65], 1), ([66, 67, 68], 3)] ∧
      s.delivered ++ (s.currentRx.unread s.data ++ s.rxBuffers.flatMap s.data) = s.completed :=
  ⟨_, rfl, rfl, ((rx_stream true streamRun _ (by decide) rfl).1 rfl).1⟩

end LddExample.ScaleUsb
