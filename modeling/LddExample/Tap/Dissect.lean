import LddExample.Lib.Access
import Mathlib.Algebra.Group.Nat.Defs
import Mathlib.Data.List.GetD

/-!
# The tap dissector of `test_tap_tcp_udp_file.c`

`main` reads a frame from the tap device into `buf`, prints it and follows the headers: Ethernet,
IPv4 and UDP, or ARP. An ARP request is turned into the request of a neighbour and written back.
Bytes of `buf` behind the frame are left over from earlier frames, and bytes behind `buf` are those
of other objects; the memory is a function of the index, and a run lists the indices it touches.

* **`dissect`**: the body of the loop behind `read`, for a frame of `ret` bytes.
* `within_dissect_iff`: what the branches touch, against the frame.
* `arpAnswer`, `mem_dissect`, `send_dissect`: only an ARP request changes the frame, and only this
  is written back.
* **`dissect_in_frame_iff`**: when every index is inside the frame.
* **`mainRun_in_frame_iff`**: the same for a whole run of `main`.
-/

namespace LddExample.Tap

open Access

/-- What `main` prints and writes to the device. Addresses are the four bytes in the frame, which
`inet_ntoa` prints and `inet_addr` reads back. -/
inductive Output
  | packet (ret : ℕ)
  | byte (b : UInt8)
  | etherType (proto : ℕ)
  | ip (protocol : UInt8) (ihl : ℕ)
  | udp (len source dest : ℕ)
  | icmp
  | ipInIp
  | tcp
  | arp
  | request (source target : List UInt8)
  | reply (source target : List UInt8)
  | send (frame : List UInt8)
deriving DecidableEq

/-! ## The code -/

/-- `htons` of the two bytes at `i`. -/
def loadBE16 (i : ℕ) : Prog Output ℕ := do
  let hi ← load i
  let lo ← load (i + 1)
  pure (hi.toNat * 256 + lo.toNat)

/-- `ehdr->h_proto` -/
def loadProto : Prog Output ℕ := loadBE16 12

/-- `ihdr->ihl`, the low half of the first byte of the IP header -/
def loadIhl : Prog Output ℕ := do
  let b ← load 14
  pure (b.toNat % 16)

/-- `ihdr->protocol` -/
def loadProtocol : Prog Output UInt8 := load 23

/-- `ahdr->ar_op` -/
def loadOp : Prog Output ℕ := loadBE16 20

/-- The loop over the bytes of a datagram. It reads `uhdr->len` and `ihdr->ihl` again in every
turn; a length is below 2¹⁶, so the tests do not run out. -/
def dumpUdp (uhdr : ℕ) : Prog Output Unit :=
  forWhile (fun i => do
      let len ← loadBE16 (uhdr + 4)
      pure (decide (i < len)))
    (fun i => do
      let ihl ← loadIhl
      let b ← load (14 + ihl * 4 + i)
      emit (.byte b)) (2 ^ 16) 0

/-- The branch `0x11`. -/
def dissectUdp : Prog Output Unit := do
  let uhdr := 14 + (← loadIhl) * 4
  let len ← loadBE16 (uhdr + 4)
  let source ← loadBE16 uhdr
  let dest ← loadBE16 (uhdr + 2)
  emit (.udp len source dest)
  dumpUdp uhdr

/-- The branch `0x0800`. -/
def dissectIp : Prog Output Unit := do
  let protocol ← loadProtocol
  let ihl ← loadIhl
  emit (.ip protocol ihl)
  if (← loadProtocol) = 0x11 then dissectUdp
  else do
    if (← loadProtocol) = 0x1 then emit .icmp
    else do
      if (← loadProtocol) = 0x4 then emit .ipInIp
      else do
        if (← loadProtocol) = 0x6 then emit .tcp

/-- An ARP request: the last byte of both sender hardware addresses is increased and the two
protocol addresses change places; then `write(tun, buf, ret)`. -/
def answerRequest (ret : ℕ) : Prog Output Unit := do
  let source ← loadN 28 4
  let target ← loadN 38 4
  emit (.request source target)
  let sha ← load 27
  store 27 (sha + 1)
  storeN 28 target
  storeN 38 source
  let hSource ← load 11
  store 11 (hSource + 1)
  let frame ← loadN 0 ret
  emit (.send frame)

/-- The branch `0x0806`. -/
def dissectArp (ret : ℕ) : Prog Output Unit := do
  emit .arp
  if (← loadOp) = 0x1 then answerRequest ret
  else do
    if (← loadOp) = 0x2 then
      let source ← loadN 28 4
      let target ← loadN 38 4
      emit (.reply source target)

/-- `for (i=0; i<ret; i++) printf("0x%2.2x ", buf[i])` -/
def dump (ret : ℕ) : Prog Output Unit :=
  forWhile (fun i => pure (decide (i < ret)))
    (fun i => do
      let b ← load i
      emit (.byte b)) (ret + 1) 0

/-- **The body of the loop**, after `read` has returned `ret`. -/
def dissect (ret : ℕ) : Prog Output Unit := do
  emit (.packet ret)
  dump ret
  if ret > 14 then
    emit (.etherType (← loadProto))
    if (← loadProto) = 0x0800 then dissectIp
    else do
      if (← loadProto) = 0x0806 then dissectArp ret

/-- `read(tun, buf, sizeof(buf))`: the frame stands at the start, the rest is as it was. -/
def readInto (buf : ℕ → UInt8) (frame : List UInt8) : ℕ → UInt8 :=
  fun i => frame.getD i (buf i)

/-- The loop of `main` over the frames that `read` returns: the length of every frame and what its
turn has done. -/
def mainRun : List (List UInt8) → (ℕ → UInt8) → List (ℕ × Outcome Output Unit)
  | [], _ => []
  | frame :: frames, buf =>
    let r := (dissect frame.length).run (readInto buf frame)
    (frame.length, r) :: mainRun frames r.mem

/-! ## The fields -/

/-- The two bytes at `i`, most significant first. -/
def be16 (mem : ℕ → UInt8) (i : ℕ) : ℕ := (mem i).toNat * 256 + (mem (i + 1)).toNat

/-- `ihdr->ihl` -/
def ihl (mem : ℕ → UInt8) : ℕ := (mem 14).toNat % 16

theorem be16_lt (mem : ℕ → UInt8) (i : ℕ) : be16 mem i < 2 ^ 16 := by
  have h₁ := (mem i).toNat_lt
  have h₂ := (mem (i + 1)).toNat_lt
  unfold be16
  omega

section Fields

variable (mem : ℕ → UInt8) (i : ℕ)

@[simp] theorem val_loadBE16 : ((loadBE16 i).run mem).val = be16 mem i := (rfl)

@[simp] theorem mem_loadBE16 : ((loadBE16 i).run mem).mem = mem := (rfl)

@[simp] theorem out_loadBE16 : ((loadBE16 i).run mem).out = [] := (rfl)

@[simp] theorem val_loadIhl : (loadIhl.run mem).val = ihl mem := (rfl)

@[simp] theorem mem_loadIhl : (loadIhl.run mem).mem = mem := (rfl)

@[simp] theorem out_loadIhl : (loadIhl.run mem).out = [] := (rfl)

variable {mem i} {n : ℕ}

@[simp] theorem within_loadBE16 : Within n (loadBE16 i) mem ↔ i + 2 ≤ n := by
  simp only [loadBE16, within_bind, within_load, within_pure, and_true]
  omega

@[simp] theorem within_loadIhl : Within n loadIhl mem ↔ 15 ≤ n := by
  simp only [loadIhl, within_bind, within_load, within_pure, and_true]
  omega

end Fields

/-! ## The bound of every branch -/

variable {mem : ℕ → UInt8} {n : ℕ}

theorem mem_dump (ret : ℕ) : ((dump ret).run mem).mem = mem :=
  mem_forWhile (fun _ => rfl) (fun _ => rfl) _ _

theorem within_dump (ret : ℕ) : Within n (dump ret) mem ↔ ret ≤ n := by
  rw [dump, within_forWhile (m := ret) (fun _ => rfl) (fun _ => rfl) (fun _ => rfl)
    (Nat.zero_le _) (by omega)]
  simp only [within_pure, implies_true, true_and, within_bind, within_load, within_emit, and_true]
  constructor
  · intro h
    by_contra hlt
    have := h n (Nat.zero_le _) (by omega)
    omega
  · intro h j _ hj
    omega

/-- The UDP header up to its length, and as many bytes as the length says, are in the frame. -/
def UdpOk (mem : ℕ → UInt8) (ret : ℕ) : Prop :=
  14 + ihl mem * 4 + 6 ≤ ret ∧ 14 + ihl mem * 4 + be16 mem (14 + ihl mem * 4 + 4) ≤ ret

theorem within_dumpUdp (uhdr : ℕ) : Within n (dumpUdp uhdr) mem ↔ uhdr + 6 ≤ n ∧
    (0 < be16 mem (uhdr + 4) → 15 ≤ n ∧ 14 + ihl mem * 4 + be16 mem (uhdr + 4) ≤ n) := by
  have hlen := be16_lt mem (uhdr + 4)
  rw [dumpUdp, within_forWhile (m := be16 mem (uhdr + 4)) (fun _ => rfl) (fun _ => rfl)
    (fun _ => rfl) (Nat.zero_le _) (by omega)]
  simp only [within_bind, within_loadBE16, within_pure, within_loadIhl, val_loadIhl, mem_loadIhl,
    within_load, within_emit, and_true]
  constructor
  · rintro ⟨htest, hbody⟩
    refine ⟨htest 0 (Nat.zero_le _) (Nat.zero_le _), fun hpos => ?_⟩
    have hlast := hbody (be16 mem (uhdr + 4) - 1) (Nat.zero_le _) (by omega)
    exact ⟨hlast.1, by omega⟩
  · rintro ⟨hhdr, hall⟩
    refine ⟨fun j _ _ => hhdr, fun j _ hj => ?_⟩
    obtain ⟨hihl, hlast⟩ := hall (by omega)
    exact ⟨hihl, by omega⟩

theorem within_dissectUdp : Within n dissectUdp mem ↔ UdpOk mem n := by
  simp only [dissectUdp, within_bind, within_loadIhl, val_loadIhl, mem_loadIhl, within_loadBE16,
    mem_loadBE16, within_emit, mem_emit, within_dumpUdp, true_and, UdpOk]
  omega

/-- The IP header is in the frame up to its protocol, and so is a UDP datagram. -/
def IpOk (mem : ℕ → UInt8) (ret : ℕ) : Prop := 24 ≤ ret ∧ (mem 23 = 0x11 → UdpOk mem ret)

theorem within_dissectIp : Within n dissectIp mem ↔ IpOk mem n := by
  simp only [dissectIp, loadProtocol, within_bind, within_load, val_load, mem_load, within_loadIhl,
    mem_loadIhl, within_emit, mem_emit, within_ite, within_dissectUdp, within_pure, IpOk,
    implies_true, and_true, true_and]
  constructor
  · rintro ⟨hproto, -, -, hudp, -⟩
    exact ⟨by omega, hudp⟩
  · rintro ⟨hproto, hudp⟩
    have h₂₃ : 23 < n := by omega
    exact ⟨h₂₃, by omega, h₂₃, hudp, fun _ => ⟨h₂₃, fun _ => ⟨h₂₃, fun _ => h₂₃⟩⟩⟩

/-- The ARP header is in the frame up to its operation, and so are the addresses of a request and of
a reply. -/
def ArpOk (mem : ℕ → UInt8) (ret : ℕ) : Prop :=
  22 ≤ ret ∧ (be16 mem 20 = 1 ∨ be16 mem 20 = 2 → 42 ≤ ret)

theorem within_answerRequest : Within n (answerRequest n) mem ↔ 42 ≤ n := by
  simp only [answerRequest, within_bind, within_loadN, val_loadN, mem_loadN, within_emit, mem_emit,
    within_load, mem_load, within_store, within_storeN, List.length_map, List.length_range,
    List.map_eq_nil_iff, List.range_eq_nil, and_true, true_and]
  omega

theorem within_dissectArp : Within n (dissectArp n) mem ↔ ArpOk mem n := by
  simp only [dissectArp, loadOp, within_bind, within_emit, mem_emit, within_loadBE16, val_loadBE16,
    mem_loadBE16, within_ite, within_answerRequest, within_loadN, within_pure, mem_loadN,
    ArpOk, implies_true, and_true, true_and]
  omega

/-- The headers that the branches follow are in the frame. -/
def HeadersOk (mem : ℕ → UInt8) (ret : ℕ) : Prop :=
  ret ≤ 14 ∨ (be16 mem 12 = 0x0800 → IpOk mem ret) ∧ (be16 mem 12 = 0x0806 → ArpOk mem ret)

/-- **The dissector keeps to the frame exactly when the headers are in it.** -/
theorem within_dissect_iff (ret : ℕ) : Within ret (dissect ret) mem ↔ HeadersOk mem ret := by
  simp only [dissect, within_bind, within_emit, mem_emit, within_dump, mem_dump, within_ite,
    loadProto, within_loadBE16, val_loadBE16, mem_loadBE16, within_dissectIp, within_dissectArp,
    within_pure, HeadersOk, implies_true, and_true, true_and, Nat.le_refl]
  constructor
  · intro h
    rcases Nat.lt_or_ge 14 ret with hlt | hle
    · obtain ⟨-, -, hip, harp⟩ := h hlt
      refine .inr ⟨hip, fun hproto => (harp ?_).2 hproto⟩
      rw [hproto]
      decide
    · exact .inl hle
  · rintro (hle | ⟨hip, harp⟩) hlt
    · omega
    · exact ⟨by omega, by omega, hip, fun _ => ⟨by omega, harp⟩⟩

/-! ## The frame alone decides -/

theorem be16_congr {mem' : ℕ → UInt8} {ret : ℕ} (h : ∀ i < ret, mem i = mem' i) {i : ℕ}
    (hi : i + 2 ≤ ret) : be16 mem i = be16 mem' i := by
  rw [be16, be16, h i (by omega), h (i + 1) (by omega)]

theorem HeadersOk.congr {mem' : ℕ → UInt8} {ret : ℕ} (h : ∀ i < ret, mem i = mem' i)
    (hok : HeadersOk mem ret) : HeadersOk mem' ret := by
  rcases Nat.lt_or_ge 14 ret with hlt | hle
  · have hproto : be16 mem 12 = be16 mem' 12 := be16_congr h (by omega)
    have hihl : ihl mem = ihl mem' := by rw [ihl, ihl, h 14 hlt]
    obtain hle | ⟨hip, harp⟩ := hok
    · omega
    refine .inr ⟨fun hip' => ?_, fun harp' => ?_⟩
    · obtain ⟨h₂₄, hudp⟩ := hip (hproto.trans hip')
      refine ⟨h₂₄, fun hudp' => ?_⟩
      obtain ⟨hhdr, hlen⟩ := hudp ((h 23 (by omega)).trans hudp')
      rw [hihl] at hhdr hlen
      rw [be16_congr h (by omega)] at hlen
      exact ⟨hhdr, hlen⟩
    · obtain ⟨h₂₂, hop⟩ := harp (hproto.trans harp')
      rw [be16_congr h (by omega)] at hop
      exact ⟨h₂₂, hop⟩
  · exact .inl hle

theorem readInto_of_lt (buf : ℕ → UInt8) {frame : List UInt8} {i : ℕ} (hi : i < frame.length) :
    readInto buf frame i = frame.getD i 0 := by
  rw [readInto, List.getD_eq_getElem _ _ hi, List.getD_eq_getElem _ _ hi]

/-- The headers of a frame are in it. -/
def InFrame (frame : List UInt8) : Prop := HeadersOk (fun i => frame.getD i 0) frame.length

theorem within_dissect_readInto (frame : List UInt8) (buf : ℕ → UInt8) :
    Within frame.length (dissect frame.length) (readInto buf frame) ↔ InFrame frame := by
  rw [within_dissect_iff]
  constructor
  · exact HeadersOk.congr fun i hi => readInto_of_lt buf hi
  · exact HeadersOk.congr fun i hi => (readInto_of_lt buf hi).symm

/-- **A turn of `main` touches only the frame exactly when the headers it follows are in the
frame**, whatever the buffer held before. -/
theorem dissect_in_frame_iff (frame : List UInt8) (buf : ℕ → UInt8) :
    (∀ i ∈ ((dissect frame.length).run (readInto buf frame)).touched, i < frame.length) ↔
      InFrame frame :=
  within_dissect_readInto frame buf

/-- A frame that ends with the first byte of its IP header. -/
def shortIp : List UInt8 := List.replicate 12 0 ++ [0x08, 0x00, 0x45]

/-- **The protocol of a short IP frame is read behind its end.** -/
theorem shortIp_touches : shortIp.length = 15 ∧
    23 ∈ ((dissect shortIp.length).run (readInto (fun _ => 0) shortIp)).touched := by
  decide +kernel

/-- **A run of `main` keeps every turn to its frame exactly when the headers of every frame are in
it.** -/
theorem mainRun_in_frame_iff (frames : List (List UInt8)) (buf : ℕ → UInt8) :
    (∀ p ∈ mainRun frames buf, ∀ i ∈ p.2.touched, i < p.1) ↔ ∀ frame ∈ frames, InFrame frame := by
  induction frames generalizing buf with
  | nil => simp [mainRun]
  | cons frame frames ih =>
    rw [mainRun, List.forall_mem_cons, List.forall_mem_cons, ih]
    exact and_congr_left fun _ => within_dissect_readInto frame buf

/-! ## The answer to a request -/

/-- The frame is an ARP request. -/
def Request (mem : ℕ → UInt8) (ret : ℕ) : Prop :=
  14 < ret ∧ be16 mem 12 = 0x0806 ∧ be16 mem 20 = 1

instance instDecidableRequest (mem : ℕ → UInt8) (ret : ℕ) : Decidable (Request mem ret) :=
  inferInstanceAs (Decidable (_ ∧ _))

/-- The buffer with both sender hardware addresses increased and the protocol addresses
exchanged. -/
def arpAnswer (mem : ℕ → UInt8) (i : ℕ) : UInt8 :=
  if i = 11 ∨ i = 27 then mem i + 1
  else if 28 ≤ i ∧ i < 32 then mem (i + 10)
  else if 38 ≤ i ∧ i < 42 then mem (i - 10)
  else mem i

theorem getD_map_range (f : ℕ → UInt8) {k j : ℕ} (h : j < k) :
    ((List.range k).map f).getD j 0 = f j := by
  rw [List.getD_eq_getElem _ _ (by simpa using h), List.getElem_map, List.getElem_range]

theorem mem_answerRequest (ret : ℕ) : ((answerRequest ret).run mem).mem = arpAnswer mem := by
  funext i
  simp only [answerRequest, mem_bind, mem_loadN, val_loadN, mem_emit, mem_load, mem_store,
    val_load, Function.update_apply, mem_storeN, List.length_map, List.length_range]
  unfold arpAnswer
  by_cases h₁ : i = 11
  · subst h₁
    simp
  · rw [if_neg h₁]
    by_cases h₂ : 38 ≤ i ∧ i < 42
    · rw [if_pos h₂, if_neg (by omega), if_neg (by omega), if_pos h₂, getD_map_range _ (by omega)]
      congr 1
      omega
    · rw [if_neg h₂, if_neg (c := 38 ≤ i ∧ i < 42) h₂]
      by_cases h₃ : 28 ≤ i ∧ i < 32
      · rw [if_pos h₃, if_neg (by omega), if_pos h₃, getD_map_range _ (by omega)]
        congr 1
        omega
      · rw [if_neg h₃, if_neg (c := 28 ≤ i ∧ i < 32) h₃]
        by_cases h₄ : i = 27
        · subst h₄
          simp
        · rw [if_neg h₄, if_neg (by omega)]

theorem mem_dumpUdp (uhdr : ℕ) : ((dumpUdp uhdr).run mem).mem = mem :=
  mem_forWhile (fun _ => rfl) (fun _ => rfl) _ _

theorem mem_dissectIp : (dissectIp.run mem).mem = mem := by
  simp only [dissectIp, dissectUdp, loadProtocol, mem_bind, mem_load, val_load, mem_loadIhl,
    mem_emit, mem_ite, mem_loadBE16, mem_dumpUdp, mem_pure, ite_self]

theorem mem_dissectArp (ret : ℕ) :
    ((dissectArp ret).run mem).mem = if be16 mem 20 = 1 then arpAnswer mem else mem := by
  simp only [dissectArp, loadOp, mem_bind, mem_emit, mem_ite, mem_loadBE16, val_loadBE16,
    mem_answerRequest, mem_loadN, mem_pure, ite_self]

/-- **Only an ARP request changes the buffer.** -/
theorem mem_dissect (ret : ℕ) :
    ((dissect ret).run mem).mem = if Request mem ret then arpAnswer mem else mem := by
  simp only [dissect, loadProto, mem_bind, mem_emit, mem_dump, mem_ite, mem_loadBE16, val_loadBE16,
    mem_dissectIp, mem_dissectArp, mem_pure]
  by_cases hreq : Request mem ret
  · obtain ⟨hret, hproto, hop⟩ := id hreq
    rw [if_pos hreq, if_pos hret, if_neg (by rw [hproto]; decide), if_pos hproto, if_pos hop]
  · rw [if_neg hreq]
    split_ifs with hret hip harp hop
    · rfl
    · exact absurd ⟨hret, harp, hop⟩ hreq
    · rfl
    · rfl
    · rfl

/-- A program that writes nothing to the device. -/
def Silent (x : Prog Output Unit) (mem : ℕ → UInt8) : Prop :=
  ∀ frame, Output.send frame ∉ (x.run mem).out

theorem silent_forWhile {cond : ℕ → Prog Output Bool} {body : ℕ → Prog Output Unit}
    (hc : ∀ i, ((cond i).run mem).mem = mem) (hb : ∀ i, ((body i).run mem).mem = mem)
    (hcout : ∀ i, ((cond i).run mem).out = [])
    (hbout : ∀ i, ∃ b, ((body i).run mem).out = [.byte b]) (fuel i : ℕ) :
    Silent (forWhile cond body fuel i) mem := by
  intro frame hmem
  refine out_forWhile (Q := fun y => y ≠ .send frame) hc hb (fun j y hy => ?_) (fun j y hy => ?_)
    fuel i _ hmem rfl
  · rw [hcout] at hy
    cases hy
  · obtain ⟨b, hb⟩ := hbout j
    rw [hb, List.mem_singleton] at hy
    rw [hy]
    simp

theorem silent_dump (ret : ℕ) : Silent (dump ret) mem :=
  silent_forWhile (fun _ => rfl) (fun _ => rfl) (fun _ => rfl) (fun i => ⟨mem i, rfl⟩) _ _

theorem silent_dumpUdp (uhdr : ℕ) : Silent (dumpUdp uhdr) mem :=
  silent_forWhile (fun _ => rfl) (fun _ => rfl) (fun _ => rfl)
    (fun i => ⟨mem (14 + ihl mem * 4 + i), rfl⟩) _ _

theorem silent_dissectIp : Silent dissectIp mem := by
  intro frame
  have hudp : .send frame ∉ ((dumpUdp (14 + ihl mem * 4)).run mem).out := silent_dumpUdp _ frame
  simp only [dissectIp, dissectUdp, loadProtocol, out_bind, out_load, mem_load, val_load,
    out_loadIhl, mem_loadIhl, val_loadIhl, out_emit, mem_emit, out_ite, out_loadBE16, mem_loadBE16,
    out_pure, List.nil_append]
  split_ifs <;> simp [hudp]

/-- What an ARP request makes `main` write: the buffer as it is then. -/
theorem out_answerRequest (ret : ℕ) : ((answerRequest ret).run mem).out =
    [.request ((List.range 4).map fun j => mem (28 + j)) ((List.range 4).map fun j => mem (38 + j)),
      .send ((List.range ret).map (arpAnswer mem))] := by
  have hmem : ((answerRequest ret).run mem).mem = arpAnswer mem := mem_answerRequest ret
  simp only [answerRequest, mem_bind, mem_loadN, val_loadN, mem_emit, mem_load, mem_store,
    val_load] at hmem
  simp only [answerRequest, out_bind, out_loadN, mem_loadN, val_loadN, out_emit, mem_emit, out_load,
    mem_load, val_load, out_store, mem_store, out_storeN, hmem, List.nil_append, Nat.zero_add,
    List.singleton_append]

theorem send_dissectArp (ret : ℕ) (frame : List UInt8) :
    .send frame ∈ ((dissectArp ret).run mem).out ↔
      be16 mem 20 = 1 ∧ frame = (List.range ret).map (arpAnswer mem) := by
  simp only [dissectArp, loadOp, out_bind, out_emit, mem_emit, out_loadBE16, mem_loadBE16,
    val_loadBE16, out_ite, out_answerRequest, out_loadN, mem_loadN, out_pure, List.nil_append]
  split_ifs with h₁ h₂ <;> simp [h₁]

/-- **Only the answer to an ARP request is written to the device.** -/
theorem send_dissect (ret : ℕ) (frame : List UInt8) :
    .send frame ∈ ((dissect ret).run mem).out ↔
      Request mem ret ∧ frame = (List.range ret).map (arpAnswer mem) := by
  have hdump : .send frame ∉ ((dump ret).run mem).out := silent_dump ret frame
  have hip : .send frame ∉ (dissectIp.run mem).out := silent_dissectIp frame
  simp only [dissect, loadProto, out_bind, out_emit, mem_emit, mem_dump, out_ite, out_loadBE16,
    mem_loadBE16, val_loadBE16, out_pure, List.nil_append, List.mem_append, List.mem_singleton,
    reduceCtorEq, false_or, hdump, Request, and_assoc]
  split_ifs with hret hproto harp
  · simp [hip, hproto]
  · simp [hret, harp, send_dissectArp]
  · simp [harp]
  · have hshort : ¬14 < ret := hret
    simp [hshort]

end LddExample.Tap
