import Clio.LiveTimer

/-!
# Scans of the retransmission timer

Histories are listed with the latest call first.
-/

namespace Clio.TimerScan

open List StateTable LiveTimer

abbrev Calls := List (Option TimerReq)

variable (s : SlotId)

def powerOn : TimerState := ⟨fun _ => ⟨false,0⟩,0⟩

/-- The timer after the calls. -/
def after : Calls → TimerState
  | [] => powerOn
  | c::cs => (retransTimer (after cs) c).1

/-- The slot that a scan after `cs` reads. -/
def scanned (cs : Calls) : SlotId := (after cs).scanSlotId+1

/-- A scan after `cs` raises the signal of the slot. -/
def fires (cs : Calls) : Prop := (retransTimer (after cs) none).2 = some s

/-- The number of scans since the latest request of the slot, if that was a reset. -/
def sinceReset : Calls → Option ℕ
  | [] => none
  | some req::cs => if req.slotid = s then if req.rstType = .reset then some 0 else none
      else sinceReset cs
  | none::cs => if scanned cs = s then (sinceReset cs).map (·+1) else sinceReset cs

/-- The slots that the calls `mid` scan when they follow `cs`. -/
def scans (cs : Calls) : Calls → List SlotId
  | [] => []
  | some _::mid => scans cs mid
  | none::mid => scanned (mid++cs)::scans cs mid

/-- What an entry holds after `k` scans since its reset. -/
def Aged (entry : RtTimerEntry) : Option ℕ → Prop
  | none => entry.active = false
  | some k => entry.active = decide (k ≤ retransTimeout.toNat) ∧
      (k ≤ retransTimeout.toNat → entry.time.toNat+k = retransTimeout.toNat)

lemma reset_aged (entry : RtTimerEntry) (rstType : TimerRstType) :
    Aged (resetEntry entry rstType) (if rstType = .reset then some 0 else none) := by
  cases rstType <;> simp [Aged,resetEntry]

lemma scan_aged {entry : RtTimerEntry} {age : Option ℕ} (h : Aged entry age) :
    Aged (scanEntry entry).1 (age.map (·+1)) ∧
      ((scanEntry entry).2 = true ↔ age = some retransTimeout.toNat) := by
  cases age with
  | none =>
    have hactive : entry.active = false := h
    simp [scanEntry,Aged,hactive]
  | some k =>
    obtain ⟨hactive,htime⟩ := h
    by_cases hk : k ≤ retransTimeout.toNat
    · have htime := htime hk
      by_cases hpos : entry.time > 0
      · have hone : 0 < entry.time.toNat := hpos
        have hsub : (entry.time-1).toNat = entry.time.toNat-1 := BitVec.toNat_sub_of_le hpos
        simp only [scanEntry,Aged,Option.map_some,hactive,hk,hpos,hsub,decide_true,if_true]
        grind
      · have hzero : entry.time.toNat = 0 := Nat.eq_zero_of_not_pos hpos
        simp only [scanEntry,Aged,Option.map_some,hactive,hk,hpos,decide_true,if_true,if_false]
        grind
    · simp only [scanEntry,Aged,Option.map_some,hactive,hk,decide_false]
      grind

variable (cs mid : Calls)

lemma after_aged : Aged ((after cs).timeoutArray s) (sinceReset s cs) := by
  induction cs with
  | nil => rfl
  | cons c cs ih =>
    cases c with
    | some req =>
      by_cases hreq : req.slotid = s
      · subst hreq
        simpa [after,retransTimer,sinceReset] using reset_aged _ req.rstType
      · simpa [after,retransTimer,sinceReset,hreq,Function.update_of_ne (Ne.symm hreq)] using ih
    | none =>
      by_cases hscan : scanned cs = s
      · subst hscan
        simpa [after,retransTimer,sinceReset,scanned] using (scan_aged ih).1
      · rw [sinceReset,if_neg hscan]
        show Aged (Function.update (after cs).timeoutArray (scanned cs) _ s) _
        rwa [Function.update_of_ne (Ne.symm hscan)]

lemma fires_iff : fires s cs ↔ scanned cs = s ∧ sinceReset s cs = some retransTimeout.toNat := by
  have hscan := (scan_aged (after_aged (scanned cs) cs)).2
  simp only [fires,retransTimer]
  constructor
  · intro h
    split at h
    · next hfire =>
      have hs : scanned cs = s := Option.some.inj h
      exact ⟨hs,hs ▸ hscan.mp hfire⟩
    · cases h
  · rintro ⟨rfl,hage⟩
    exact if_pos (hscan.mpr hage)

/-- Without a reset in between the count goes on. -/
lemma since_append (hmid : some ⟨s,.reset⟩ ∉ mid) {k : ℕ}
    (h : sinceReset s (mid++cs) = some k) : ∃ j ≤ k, sinceReset s cs = some j := by
  induction mid generalizing k with
  | nil => exact ⟨k,le_rfl,h⟩
  | cons c mid ih =>
    rw [mem_cons,not_or] at hmid
    rw [cons_append] at h
    cases c with
    | some req =>
      rw [sinceReset] at h
      split_ifs at h with hreq hreset
      · exact absurd (by rw [← hreq,← hreset]) hmid.1
      · exact ih hmid.2 h
    | none =>
      rw [sinceReset] at h
      split_ifs at h
      · obtain ⟨j,hj,rfl⟩ := Option.map_eq_some_iff.mp h
        obtain ⟨i,hi,hcs⟩ := ih hmid.2 hj
        exact ⟨i,by omega,hcs⟩
      · exact ih hmid.2 h

lemma scans_range : scanned (mid++cs) = scanned cs+BitVec.ofNat 10 (scans cs mid).length ∧
      (scans cs mid).reverse =
        (range (scans cs mid).length).map fun i => scanned cs+BitVec.ofNat 10 i := by
  induction mid with
  | nil => simp [scans]
  | cons c mid ih =>
    cases c with
    | some req => exact ih
    | none =>
      have hnext : scanned (none::mid++cs) = scanned (mid++cs)+1 := rfl
      rw [hnext,scans,length_cons,reverse_cons,range_succ,map_append,ih.2,ih.1,BitVec.ofNat_add,
        BitVec.add_assoc]
      exact ⟨rfl,rfl⟩

lemma round_once (hfirst : scanned cs = s)
    (hnext : scanned (mid++none::cs) = s) (hnone : s ∉ scans (none::cs) mid) (u : SlotId)
    (hu : u ≠ s) : (scans (none::cs) mid).count u = 1 := by
  obtain ⟨hend,hall⟩ := scans_range (none::cs) mid
  have hstart : scanned (none::cs) = s+1 := by rw [← hfirst]; rfl
  rw [hstart] at hend hall
  have hlt : (scans (none::cs) mid).length < 1024 := by
    by_contra hge
    refine hnone (mem_reverse.mp (hall ▸ mem_map.mpr ⟨1023,mem_range.mpr (by omega),?_⟩))
    bv_omega
  -- the cursor is back at the slot, so all others were scanned
  have hlen : (scans (none::cs) mid).length = 1023 := by
    rw [hend] at hnext
    bv_omega
  rw [← count_reverse,hall,hlen]
  apply count_eq_one_of_mem
  · refine Nodup.map_on (fun i hi j hj hij => ?_) nodup_range
    rw [mem_range] at hi hj
    bv_omega
  · have hu' : (u-s-1).toNat < 1023 := by bv_omega
    exact mem_map.mpr ⟨(u-s-1).toNat,mem_range.mpr hu',by bv_omega⟩

/-- The timeout signal of a slot, its rate and the order of the scans. -/
theorem timer_fires (cs : Calls) :
    (fires s cs ↔ scanned cs = s ∧ sinceReset s cs = some retransTimeout.toNat) ∧
      (∀ mid, fires s cs → fires s (mid++none::cs) → some ⟨s,.reset⟩ ∈ mid) ∧
      (∀ mid, fires s (mid++some ⟨s,.stop⟩::cs) → some ⟨s,.reset⟩ ∈ mid) ∧
      ∀ mid, scanned cs = s → scanned (mid++none::cs) = s → s ∉ scans (none::cs) mid →
        ∀ u ≠ s, (scans (none::cs) mid).count u = 1 := by
  refine ⟨fires_iff s cs,fun mid hfirst hsecond => ?_,fun mid hfire => ?_,
    fun mid hfirst hnext hnone => round_once s cs mid hfirst hnext hnone⟩
  · obtain ⟨hscan,hage⟩ := (fires_iff s cs).mp hfirst
    by_contra hmid
    obtain ⟨j,hj,hcs⟩ := since_append s _ mid hmid ((fires_iff s _).mp hsecond).2
    rw [sinceReset,if_pos hscan,hage,Option.map_some,Option.some.injEq] at hcs
    omega
  · by_contra hmid
    obtain ⟨j,-,hcs⟩ := since_append s _ mid hmid ((fires_iff s _).mp hfire).2
    simp [sinceReset] at hcs

end Clio.TimerScan
