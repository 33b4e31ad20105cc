import LddExample.QfpFuse.Books

/-!
# The window of the PROM

The check of a request is made in 32 bits: `base + offset + 4 * size` may pass zero and come out
small. It bounds neither the words that are touched nor the buffer that is allocated then.

* `Prom.Valid`: what the resource of the platform is.
* `Safe p req`: no command with the request `req` leaves the PROM or its buffer, whatever is
  answered.
* `Fits p req`: the request ends in the PROM, without the wrap.
* **`safe_iff_fits`**: of the accepted requests, exactly those that fit are safe.
-/

namespace LddExample.QfpFuse

open Interact

/-- The bytes of the word at `a` are in the PROM. -/
def Prom.Inside (p : Prom) (a : UInt32) : Prop :=
  p.qfpromBase.toNat ≤ a.toNat ∧ a.toNat + 3 ≤ p.qfpromEnd.toNat

/-- The resource of the platform: the blow registers are in the PROM, which does not start at 0. -/
structure Prom.Valid (p : Prom) : Prop where
  base : 4 ≤ p.qfpromBase.toNat
  regs : p.qfpromBase.toNat + 0x204F ≤ p.qfpromEnd.toNat

/-- Whatever is answered to a command with this request, it stays in its buffer and touches words of
the PROM only. -/
def Safe (p : Prom) (req : Req) : Prop :=
  ∀ (cmd arg : UInt32) (σ : Type) (h : Hardware Io Io.Answer σ) (s : σ),
    let r := run (accounted h Books.enter) (qfpFuseIoctl p cmd arg) (s, .empty)
    r.2.2.req = some req → (∃ out, r.1 = .ok out) ∧
      ∀ a ∈ r.2.2.touched, p.Inside a

/-- The words of a request end at most one byte behind the PROM, without wrapping. -/
def Fits (p : Prom) (req : Req) : Prop :=
  p.qfpromBase.toNat + req.offset.toNat + 4 * req.size.toNat ≤ p.qfpromEnd.toNat + 1

instance (p : Prom) (req : Req) : Decidable (Fits p req) := inferInstanceAs (Decidable (_ ≤ _))

/-! ## Arithmetic -/

variable {p : Prom} {req : Req}

theorem word_toNat (p : Prom) (req : Req) (j : ℕ) :
    (p.word req j).toNat =
      (p.qfpromBase.toNat + req.offset.toNat + 4 * j) % 4294967296 := by
  have hfour : (4 : UInt32).toNat = 4 := rfl
  simp only [Prom.word, UInt32.toNat_add, UInt32.toNat_mul, UInt32.toNat_ofNat', hfour]
  omega

theorem words_eq (req : Req) : req.words = req.size.toNat % 1073741824 := by
  have hfour : (4 : UInt32).toNat = 4 := rfl
  simp only [Req.words, UInt32.toNat_mul, hfour]
  omega

theorem inside_blowTimer (hp : p.Valid) : p.Inside p.blowTimer := by
  have hregs := hp.regs
  have hend := p.qfpromEnd.toNat_lt
  have hreg : (0x2038 : UInt32).toNat = 0x2038 := rfl
  unfold Prom.Inside Prom.blowTimer
  rw [UInt32.toNat_add, hreg, Nat.mod_eq_of_lt (by omega)]
  omega

theorem inside_blowStatus (hp : p.Valid) : p.Inside p.blowStatus := by
  have hregs := hp.regs
  have hend := p.qfpromEnd.toNat_lt
  have hreg : (0x204C : UInt32).toNat = 0x204C := rfl
  unfold Prom.Inside Prom.blowStatus
  rw [UInt32.toNat_add, hreg, Nat.mod_eq_of_lt (by omega)]
  omega

theorem size_pos (hacc : p.accepts req = true) : 0 < req.size.toNat := by
  have hne := of_decide_eq_true (Bool.and_eq_true_iff.mp hacc).1
  exact Nat.pos_of_ne_zero fun hzero => hne (UInt32.toNat.inj hzero)

theorem le_of_accepts (hacc : p.accepts req = true) :
    (p.qfpromBase.toNat + req.offset.toNat + 4 * req.size.toNat) % 4294967296 ≤
      p.qfpromEnd.toNat := by
  have hle := UInt32.le_iff_toNat_le.mp (of_decide_eq_true (Bool.and_eq_true_iff.mp hacc).2)
  have hfour : (4 : UInt32).toNat = 4 := rfl
  simp only [UInt32.toNat_add, UInt32.toNat_mul, hfour] at hle
  omega

theorem inside_of_fits (hfit : Fits p req) {j : ℕ} (hj : j < req.size.toNat) :
    p.Inside (p.word req j) := by
  have hend := p.qfpromEnd.toNat_lt
  unfold Fits at hfit
  unfold Prom.Inside
  rw [word_toNat, Nat.mod_eq_of_lt (by omega)]
  omega

theorem words_of_fits (hp : p.Valid) (hfit : Fits p req) : req.words = req.size.toNat := by
  have hbase := hp.base
  have hend := p.qfpromEnd.toNat_lt
  unfold Fits at hfit
  rw [words_eq, Nat.mod_eq_of_lt (by omega)]

/-- **A request that passes the check and does not fit has a word outside.** The first one, when the
offset alone wraps; else the first one behind the wrap, or the last one. -/
theorem outside_of_not_fits (hp : p.Valid) (hacc : p.accepts req = true)
    (hfit : ¬Fits p req) (hwords : req.size.toNat ≤ req.words) :
    ∃ j, j < req.size.toNat ∧ ¬p.Inside (p.word req j) := by
  have hbase := hp.base
  have hpos := size_pos hacc
  have hle := le_of_accepts hacc
  have hend := p.qfpromEnd.toNat_lt
  have hoffset := req.offset.toNat_lt
  have hbase' := p.qfpromBase.toNat_lt
  rw [words_eq] at hwords
  unfold Fits at hfit
  unfold Prom.Inside
  by_cases hfirst : 4294967296 ≤ p.qfpromBase.toNat + req.offset.toNat
  · refine ⟨0, hpos, ?_⟩
    rw [word_toNat]
    omega
  · by_cases hlast : p.qfpromBase.toNat + req.offset.toNat + 4 * (req.size.toNat - 1) < 4294967296
    · refine ⟨req.size.toNat - 1, by omega, ?_⟩
      rw [word_toNat]
      omega
    · refine ⟨(4294967296 - (p.qfpromBase.toNat + req.offset.toNat) + 3) / 4, by omega, ?_⟩
      rw [word_toNat]
      omega

/-! ## Runs -/

theorem safe_of_fits (hp : p.Valid) (hfit : Fits p req) : Safe p req := by
  intro cmd arg σ h s r hreq
  have hcmd : Command p .empty r.1 r.2.2 := run_accounts h (accounts_ioctl p cmd arg rfl)
  have hone : ∀ {req'}, r.2.2.req = some req' → req' = req := fun h' =>
    Option.some.inj (h'.symm.trans hreq)
  refine ⟨?_, fun a ha => ?_⟩
  · cases hr : r.1 with
    | ok out => exact ⟨out, rfl⟩
    | error e =>
      obtain ⟨req', hreq', -, hlt⟩ := hcmd.fault e hr
      rw [hone hreq', words_of_fits hp hfit] at hlt
      exact absurd hlt (Nat.lt_irrefl _)
  · obtain hmem | htimer | hstatus | ⟨req', hreq', -, j, -, hlt, rfl⟩ := hcmd.touched a ha
    · cases hmem
    · exact htimer ▸ inside_blowTimer hp
    · exact hstatus ▸ inside_blowStatus hp
    · rw [hone hreq'] at hlt ⊢
      exact inside_of_fits hfit (by omega)

/-- The account of a read when its loop begins. -/
def Books.reading (req : Req) : Books :=
  { Books.empty with req := some req, blocks := 1, held := true }

theorem run_bench_read (hacc : p.accepts req = true) (mem : UInt32 → UInt32) :
    let h := accounted (bench req (fun _ => 0) false) Books.enter
    let r := run h (qfpFuseIoctl p qfpFuseIocRead 1) (mem, .empty)
    let loop := run h (readLoop p req req.size.toNat 0 (List.replicate req.words 0))
      (mem, .reading req)
    r.2.2.req = loop.2.2.req ∧ r.2.2.touched = loop.2.2.touched ∧
      ((∃ out, r.1 = .ok out) → ∃ buf, loop.1 = .ok buf) := by
  intro h r loop
  have hget : run h (getReq p 1) (mem, .empty) =
      (.ok (.ok req), mem, { Books.empty with req := some req }) := by
    rw [getReq, if_neg (by decide), run_bind]
    change run h (if p.accepts req = true then _ else _) _ = _
    rw [if_pos hacc]
    rfl
  have hcmd : r = run h (iocRead p 1) (mem, .empty) := by
    change run h (qfpFuseIoctl p qfpFuseIocRead 1) (mem, .empty) = _
    rw [qfpFuseIoctl, if_neg (by decide), if_pos rfl]
  have hrun : r = run h (readLoop p req req.size.toNat 0 (List.replicate req.words 0) >>= fun buf =>
      copyOut req.data buf >>= fun copied => up >>= fun _ => kfree >>= fun _ =>
        pure (if copied then .ok () else .error .efault)) (mem, .reading req) := by
    rw [hcmd, iocRead, run_bind, hget]
    rfl
  rw [hrun, run_bind, show run h _ (mem, .reading req) = loop from rfl]
  clear_value loop
  obtain ⟨out, mem', b'⟩ := loop
  cases out with
  | ok buf => exact ⟨rfl, rfl, fun _ => ⟨buf, rfl⟩⟩
  | error e => exact ⟨rfl, rfl, fun ⟨_, hout⟩ => by cases hout⟩

theorem fits_of_safe (hp : p.Valid) (hacc : p.accepts req = true) (hsafe : Safe p req) :
    Fits p req := by
  refine Decidable.of_not_not fun hfit => ?_
  obtain ⟨hreq, htouched, hok⟩ := run_bench_read hacc fun _ => 0
  have hloop := run_accounts (bench req (fun _ => 0) false) (s := fun _ => 0)
    (accounts_readLoop p req req.size.toNat 0 (List.replicate req.words 0) (.reading req))
  obtain ⟨hout, hinside⟩ := hsafe qfpFuseIocRead 1 _ (bench req (fun _ => 0) false) (fun _ => 0)
    (hreq.trans hloop.touch.hold.req)
  obtain ⟨buf, hbuf⟩ := hok hout
  obtain ⟨-, hsize⟩ := hloop.size buf hbuf
  have hpos := size_pos hacc
  rw [List.length_replicate] at hsize
  obtain ⟨j, hj, hnot⟩ := outside_of_not_fits hp hacc hfit (by omega)
  have hmem := (hloop.after buf hbuf j (Nat.zero_le j) (by omega)).1
  rw [← htouched] at hmem
  exact hnot (hinside _ hmem)

/-- **The check keeps the requests that fit, and lets some others through.** Of the requests that
pass the check, exactly those are safe whose last byte is in the PROM when the sum is not cut to 32
bits. -/
theorem safe_iff_fits (hp : p.Valid) (hacc : p.accepts req = true) :
    Safe p req ↔ Fits p req :=
  ⟨fits_of_safe hp hacc, safe_of_fits hp⟩

theorem safe_iff_fits_wrap :
    promEx.accepts ⟨0xfffffff0, 4, 0⟩ = true ∧
      (Safe promEx ⟨0xfffffff0, 4, 0⟩ ↔ Fits promEx ⟨0xfffffff0, 4, 0⟩) ∧
      ¬Fits promEx ⟨0xfffffff0, 4, 0⟩ :=
  ⟨by decide, safe_iff_fits ⟨by decide, by decide⟩ (by decide), by decide⟩

end LddExample.QfpFuse
