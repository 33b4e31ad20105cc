import LddExample.Mmu.Layout

/-!
# Granularity strings

The granularity of a map entry is taken from the configuration file and compared with three
strings. Any other string selects no branch in the two loops, and then nothing moves their counter.

* `MapEntry.RealloctbEnds`, `MapEntry.MmumapEnds`: the two loops end, by their test or by an
  exception, when they may make enough turns.
* `Gran.known_ofString`: the three strings.
* **`loops_end_iff`**: both loops end exactly for these strings and for an empty range.
-/

namespace LddExample.Mmu

open Loop MMUTablel3

namespace MapEntry

variable (e : MapEntry) (t : MMUTablel3)

/-- The loop of `realloctb` ends. -/
def RealloctbEnds : Prop :=
  ∃ n, whileLt .outOfFuel e.stop Prod.snd (realloctbBody e.gran) n
    (t, realloctbStart e.virtBegin e.gran) ≠ .error .outOfFuel

/-- The loop of `mmumap` ends. -/
def MmumapEnds : Prop :=
  ∃ n, whileLt .outOfFuel e.stop (fun s => s.2.1) (mmumapBody e.gran e.attr) n
    (t, e.virtBegin, e.phyBegin) ≠ .error .outOfFuel

/-- Both loops of a call of `mmumap` end; the second one starts where the first one succeeds. -/
def LoopsEnd : Prop :=
  e.RealloctbEnds t ∧ ∀ u, t.realloctb e.virtBegin e.stop e.gran = .ok u → e.MmumapEnds u

end MapEntry

theorem Gran.known_ofString (name : String) :
    (Gran.ofString name).Known ↔ name = "1G" ∨ name = "2M" ∨ name = "4K" := by
  unfold Gran.ofString
  split_ifs with h1 h2 h4
  · exact iff_of_true (.inl rfl) (.inl h1)
  · exact iff_of_true (.inr (.inl rfl)) (.inr (.inl h2))
  · exact iff_of_true (.inr (.inr rfl)) (.inr (.inr h4))
  · refine iff_of_false ?_ ?_
    · rintro (h | h | h) <;> cases h
    · rintro (h | h | h)
      · exact h1 h
      · exact h2 h
      · exact h4 h

theorem Gran.known_or_other (gran : Gran) : gran.Known ∨ ∃ name, gran = .other name := by
  cases gran with
  | g1G => exact .inl (.inl rfl)
  | g2M => exact .inl (.inr (.inl rfl))
  | g4K => exact .inl (.inr (.inr rfl))
  | other name => exact .inr ⟨name, rfl⟩

namespace MapEntry

variable {e : MapEntry}

theorem loopsEnd_of_known (hknown : e.gran.Known) (t : MMUTablel3) : e.LoopsEnd t := by
  constructor
  · refine ⟨e.stop, fun h => ?_⟩
    have herr : t.realloctb e.virtBegin e.stop e.gran = .error .outOfFuel := by
      rw [realloctb, h]
      rfl
    cases OnlyIndexError.realloctb t e.virtBegin e.stop hknown _ herr
  · intro u hu
    refine ⟨e.stop, fun h => ?_⟩
    have herr : t.mmumap e = .error .outOfFuel := by
      rw [mmumap, hu, Except.bind, h]
      rfl
    cases OnlyIndexError.mmumap t hknown _ herr

theorem loopsEnd_of_empty {name : String} (hg : e.gran = .other name) (h : e.stop ≤ e.virtBegin)
    (t : MMUTablel3) : e.LoopsEnd t := by
  constructor
  · refine ⟨0, ?_⟩
    rw [whileLt, if_neg (by rw [hg]; exact not_lt.mpr h)]
    intro hfuel
    cases hfuel
  · intro u _
    refine ⟨0, ?_⟩
    rw [whileLt, if_neg (not_lt.mpr h)]
    intro hfuel
    cases hfuel

/-- **With any other granularity the loop of `realloctb` does not end.** -/
theorem not_realloctbEnds_of_other {name : String} (hg : e.gran = .other name)
    (h : e.virtBegin < e.stop) (t : MMUTablel3) : ¬e.RealloctbEnds t := by
  rintro ⟨n, hn⟩
  refine hn (whileLt_stuck ?_ ?_ n)
  · rw [hg]
    rfl
  · rw [hg]
    exact h

end MapEntry

/-- **Both loops end exactly when the granularity is one of the three strings or the range is
empty.** -/
theorem loops_end_iff (name : String) (phyBegin phyEnd virtBegin attr : ℕ) (t : MMUTablel3) :
    MapEntry.LoopsEnd ⟨phyBegin, phyEnd, virtBegin, Gran.ofString name, attr⟩ t ↔
      (name = "1G" ∨ name = "2M" ∨ name = "4K") ∨ phyEnd ≤ phyBegin := by
  rw [← Gran.known_ofString]
  generalize Gran.ofString name = gran
  rcases gran.known_or_other with hknown | ⟨name, rfl⟩
  · exact iff_of_true (MapEntry.loopsEnd_of_known hknown t) (.inl hknown)
  · have hunknown : ¬(Gran.other name).Known := by
      rintro (h | h | h) <;> cases h
    rw [or_iff_right hunknown]
    constructor
    · rintro ⟨hends, -⟩
      by_contra hlt
      refine MapEntry.not_realloctbEnds_of_other rfl ?_ t hends
      simp only [MapEntry.stop]
      omega
    · intro hle
      refine MapEntry.loopsEnd_of_empty rfl ?_ t
      simp only [MapEntry.stop]
      omega

/-- **The lower-case `4k` of `mmu.json` does not end.** -/
theorem lower_case_does_not_end :
    ¬MapEntry.LoopsEnd ⟨0, 0x1000, 0, Gran.ofString "4k", genElxbinAttr false .device⟩ init := by
  have hother : Gran.ofString "4k" = .other "4k" := by decide
  rw [hother]
  exact fun h => MapEntry.not_realloctbEnds_of_other rfl (by decide) init h.1

end LddExample.Mmu
