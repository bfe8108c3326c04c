import Clio.CoreMemTypes

/-!
# The packet parser

The parser takes the header off a packet and shifts the payload down across beats.
-/

namespace Clio.PacketParser

open List

structure Format (F L H : Type) where
  low : F → L
  high : F → H
  getSize : F → BitVec 16
  headerBytes : ℕ
  dataBytes : ℕ
  header_le : headerBytes ≤ dataBytes
  data_pos : 0 < dataBytes

structure Packet (F : Type) where
  first : F
  rest : List F
  deriving DecidableEq, Repr

structure Beat (F : Type) where
  packet : Packet F
  fragment : F
  deriving DecidableEq, Repr

/-- A beat of the output; `ext` is its part from the next beat of the input, if payload. -/
structure Out (F L H : Type) where
  packet : Packet F
  pad : H
  ext : Option L
  last : Bool
  deriving DecidableEq, Repr

structure Held (F H : Type) where
  packet : Packet F
  size : ℕ
  dataReg : H

variable {F L H : Type} (fmt : Format F L H)

def Format.sizeOf (f : F) : ℕ := (fmt.getSize f).toNat

def Format.offsetBytes : ℕ := fmt.dataBytes-fmt.headerBytes

def load (b : Beat F) : Held F H :=
  ⟨b.packet,(fmt.sizeOf b.fragment+2^16-fmt.headerBytes)%2^16,fmt.high b.fragment⟩

def noNeedData (held : Held F H) : Prop := held.size ≤ fmt.offsetBytes ∧ held.size ≠ 0

instance (held : Held F H) : Decidable (noNeedData fmt held) := inferInstanceAs (Decidable (_ ∧ _))

def outOf (held : Held F H) (ext : Option L) (last : Bool) : Out F L H :=
  ⟨held.packet,held.dataReg,ext,last⟩

def cycle (held : Option (Held F H)) (toData : Option (Beat F)) (ready : Bool) :
    Option (Held F H) × Option (Out F L H) × Bool :=
  match held with
  | none =>
      match toData with
      | none => (none,none,false)
      | some b =>
          if fmt.sizeOf b.fragment ≤ fmt.dataBytes ∧ ready = true then
            (none,some ⟨b.packet,fmt.high b.fragment,none,true⟩,true)
          else (some (load fmt b),none,true)
  | some p =>
      if noNeedData fmt p then
        if ready then (toData.map (load fmt),some (outOf p none true),toData.isSome)
        else (some p,none,false)
      else
        match toData with
        | none => (some p,none,false)
        | some b =>
            if ready then
              if p.size ≤ fmt.dataBytes then
                (none,some (outOf p (some (fmt.low b.fragment)) true),true)
              else (some ⟨b.packet,p.size-fmt.dataBytes,fmt.high b.fragment⟩,
                some (outOf p (some (fmt.low b.fragment)) false),true)
            else (some p,none,false)

structure State (F L H : Type) where
  todo : List (Beat F)
  held : Option (Held F H)
  outs : List (Out F L H)

def step (s : State F L H) (offer ready : Bool) : State F L H :=
  let res := cycle fmt s.held (if offer then s.todo.head? else none) ready
  ⟨if res.2.2 then s.todo.tail else s.todo,res.1,s.outs++res.2.1.toList⟩

def run (schedule : List (Bool × Bool)) (s : State F L H) : State F L H :=
  schedule.foldl (fun s c => step fmt s c.1 c.2) s

/-- A first beat without payload is thrown away. -/
def toData (p : Packet F) : List (Beat F) :=
  (if fmt.sizeOf p.first ≤ fmt.headerBytes then p.rest else p.first::p.rest).map (Beat.mk p)

def headerOut (ps : List (Packet F)) : List (Packet F × F) := ps.map fun p => (p,p.first)

def start (ps : List (Packet F)) : State F L H := ⟨ps.flatMap (toData fmt),none,[]⟩

def advance : Option (Held F H) → Beat F → Option (Held F H)
  | none, b => some (load fmt b)
  | some p, b =>
      if noNeedData fmt p then some (load fmt b)
      else if p.size ≤ fmt.dataBytes then none
      else some ⟨b.packet,p.size-fmt.dataBytes,fmt.high b.fragment⟩

def emits : Option (Held F H) → Beat F → List (Out F L H)
  | none, _ => []
  | some p, b =>
      if noNeedData fmt p then [outOf p none true]
      else [outOf p (some (fmt.low b.fragment)) (p.size ≤ fmt.dataBytes)]

/-- What is emitted without further input. -/
def drain : Option (Held F H) → List (Out F L H)
  | none => []
  | some p => if noNeedData fmt p then [outOf p none true] else []

def parse : Option (Held F H) → List (Beat F) → List (Out F L H)
  | held, [] => drain fmt held
  | held, b::bs => emits fmt held b++parse (advance fmt held b) bs

def settled : Option (Held F H) → Prop
  | none => True
  | some p => noNeedData fmt p

instance (held : Option (Held F H)) : Decidable (settled fmt held) := match held with
  | none => .isTrue trivial
  | some p => inferInstanceAs (Decidable (noNeedData fmt p))

def Starts : Option (Held F H) → List (Beat F) → Prop
  | _, [] => True
  | held, b::bs => (settled fmt held → fmt.headerBytes < fmt.sizeOf b.fragment) ∧
      Starts (advance fmt held b) bs

def after (held : Option (Held F H)) (bs : List (Beat F)) : Option (Held F H) :=
  bs.foldl (advance fmt) held

variable {fmt}

variable (b : Beat F)

lemma load_size (h : fmt.headerBytes < fmt.sizeOf b.fragment) :
    (load fmt b).size = fmt.sizeOf b.fragment-fmt.headerBytes := by
  have hlt : fmt.sizeOf b.fragment < 2^16 := (fmt.getSize b.fragment).isLt
  simp only [load]
  omega

lemma advance_settled {held : Option (Held F H)} (h : settled fmt held) (b : Beat F) :
    advance fmt held b = some (load fmt b) := by
  cases held with
  | none => rfl
  | some p => exact if_pos h

lemma parse_settled {held : Option (Held F H)} (h : settled fmt held) (bs : List (Beat F)) :
    parse fmt held bs = drain fmt held++parse fmt none bs := by
  cases held with
  | none => rfl
  | some p =>
    have hp : noNeedData fmt p := h
    cases bs with
    | nil => simp [parse,drain]
    | cons b bs => simp [parse,drain,emits,advance,hp]

lemma parse_append {held : Option (Held F H)} (bs cs : List (Beat F))
    (h : settled fmt (after fmt held bs)) :
    parse fmt held (bs++cs) = parse fmt held bs++parse fmt none cs := by
  induction bs generalizing held with
  | nil => exact parse_settled h cs
  | cons b bs ih =>
    rw [cons_append,parse,parse,append_assoc,ih h]

lemma after_append (held : Option (Held F H)) (bs cs : List (Beat F)) :
    after fmt held (bs++cs) = after fmt (after fmt held bs) cs := List.foldl_append

lemma after_settled {held : Option (Held F H)} (h : settled fmt held) {bs : List (Beat F)}
    (hbs : settled fmt (after fmt none bs)) : settled fmt (after fmt held bs) := by
  cases bs with
  | nil => exact h
  | cons b bs =>
    rw [after,foldl_cons,advance_settled h]
    exact hbs

lemma starts_settled {held : Option (Held F H)} (h : settled fmt held) {bs : List (Beat F)} :
    Starts fmt held bs ↔ Starts fmt none bs := by
  cases bs with
  | nil => exact Iff.rfl
  | cons b bs =>
    rw [Starts,Starts,advance_settled h]
    exact and_congr_left' ⟨fun hb _ => hb h,fun hb _ => hb trivial⟩

lemma starts_append {held : Option (Held F H)} (bs cs : List (Beat F))
    (hbs : Starts fmt held bs) (h : settled fmt (after fmt held bs)) (hcs : Starts fmt none cs) :
    Starts fmt held (bs++cs) := by
  induction bs generalizing held with
  | nil => exact (starts_settled h).mpr hcs
  | cons b bs ih => exact ⟨hbs.1,ih hbs.2 h⟩

lemma load_no_need (h : fmt.headerBytes < fmt.sizeOf b.fragment)
    (hle : fmt.sizeOf b.fragment ≤ fmt.dataBytes) : noNeedData fmt (load fmt b) := by
  unfold noNeedData
  rw [load_size b h,Format.offsetBytes]
  omega

lemma parse_beat {held : Option (Held F H)} (bs : List (Beat F)) :
    parse fmt held (b::bs) = emits fmt held b++parse fmt (advance fmt held b) bs := rfl

lemma cycle_parse (held : Option (Held F H)) (todo : List (Beat F)) (offer ready : Bool)
    (h : Starts fmt held todo) :
    let res := cycle fmt held (if offer then todo.head? else none) ready
    let rest := if res.2.2 then todo.tail else todo
    res.2.1.toList++parse fmt res.1 rest = parse fmt held todo ∧ Starts fmt res.1 rest := by
  cases htd : (if offer = true then todo.head? else none) with
  | none =>
    cases held with
    | none => exact ⟨rfl,h⟩
    | some p =>
      by_cases hp : noNeedData fmt p
      · cases ready with
        | false => simpa [cycle,hp] using h
        | true =>
          have hs : settled fmt (some p) := hp
          simp only [cycle,hp,if_true,Option.map_none,Option.isSome_none,Bool.false_eq_true,
            if_false]
          refine ⟨?_,?_⟩
          · rw [parse_settled hs]
            simp [drain,hp]
          · exact (starts_settled hs).mp h
      · simpa [cycle,hp] using h
  | some b =>
    obtain ⟨bs,rfl⟩ : ∃ bs, todo = b::bs := by
      cases offer with
      | false => cases htd
      | true =>
        cases todo with
        | nil => cases htd
        | cons c cs =>
          obtain rfl := Option.some.inj htd
          exact ⟨cs,rfl⟩
    cases held with
    | none =>
      by_cases hd : fmt.sizeOf b.fragment ≤ fmt.dataBytes ∧ ready = true
      · -- a short packet goes out at once
        have hn := load_no_need b (h.1 trivial) hd.1
        have hs : settled fmt (some (load fmt b)) := hn
        simp only [cycle,hd,and_self,if_true,tail_cons]
        refine ⟨?_,?_⟩
        · have hdrain : drain fmt (some (load fmt b)) =
              [⟨b.packet,fmt.high b.fragment,none,true⟩] := if_pos hn
          rw [parse_beat,show advance fmt none b = some (load fmt b) from rfl,parse_settled hs,
            hdrain]
          rfl
        · exact (starts_settled hs).mp h.2
      · simp only [cycle,hd,if_false,if_true,tail_cons]
        exact ⟨rfl,h.2⟩
    | some p =>
      by_cases hp : noNeedData fmt p
      · cases ready with
        | false => simpa [cycle,hp] using h
        | true =>
          have hrest := h.2
          simp only [advance,hp,if_true] at hrest
          simpa [cycle,hp,parse,emits,advance] using hrest
      · cases ready with
        | false => simpa [cycle,hp] using h
        | true =>
          have hrest := h.2
          simp only [advance,hp,if_false] at hrest
          by_cases hd : p.size ≤ fmt.dataBytes
          · simp only [hd,if_true] at hrest
            simpa [cycle,hp,hd,parse,emits,advance] using hrest
          · simp only [hd,if_false] at hrest
            simpa [cycle,hp,hd,parse,emits,advance] using hrest

lemma step_parse (s : State F L H) (offer ready : Bool) (h : Starts fmt s.held s.todo) :
    (step fmt s offer ready).outs++parse fmt (step fmt s offer ready).held
        (step fmt s offer ready).todo = s.outs++parse fmt s.held s.todo ∧
      Starts fmt (step fmt s offer ready).held (step fmt s offer ready).todo := by
  obtain ⟨hparse,hstarts⟩ := cycle_parse s.held s.todo offer ready h
  refine ⟨?_,hstarts⟩
  rw [← hparse]
  simp only [step,append_assoc]

lemma run_parse (schedule : List (Bool × Bool)) (s : State F L H)
    (h : Starts fmt s.held s.todo) :
    (run fmt schedule s).outs++parse fmt (run fmt schedule s).held (run fmt schedule s).todo =
      s.outs++parse fmt s.held s.todo := by
  induction schedule generalizing s with
  | nil => rfl
  | cons c cs ih =>
    obtain ⟨hparse,hstarts⟩ := step_parse s c.1 c.2 h
    rw [run,foldl_cons]
    exact (ih _ hstarts).trans hparse

def Done (fmt : Format F L H) (s : State F L H) : Prop := s.todo = [] ∧ drain fmt s.held = []

section

variable (fmt)

def WellFormed (p : Packet F) : Prop :=
  fmt.headerBytes ≤ fmt.sizeOf p.first ∧
    p.rest.length+1 = (fmt.sizeOf p.first+fmt.dataBytes-1)/fmt.dataBytes

instance (p : Packet F) : Decidable (WellFormed fmt p) := inferInstanceAs (Decidable (_ ∧ _))

/-- The parser is through with the packet when the packet ends. -/
structure InStep (p : Packet F) : Prop where
  starts : Starts fmt none (toData fmt p)
  ends : settled fmt (after fmt none (toData fmt p))

def payloadFrom (p : Packet F) : ℕ → F → List F → List (Out F L H)
  | _, f, [] => [⟨p,fmt.high f,none,true⟩]
  | size, f, g::gs =>
      if size ≤ fmt.dataBytes then [⟨p,fmt.high f,some (fmt.low g),true⟩]
      else ⟨p,fmt.high f,some (fmt.low g),false⟩::payloadFrom p (size-fmt.dataBytes) g gs

def payload (p : Packet F) : List (Out F L H) :=
  if fmt.sizeOf p.first ≤ fmt.headerBytes then []
  else payloadFrom fmt p (fmt.sizeOf p.first-fmt.headerBytes) p.first p.rest

/-- Exactly the final element is marked. -/
def Marked {α : Type} (last : α → Bool) (xs : List α) : Prop :=
  ∃ front x, xs = front++[x] ∧ last x = true ∧ ∀ y ∈ front, last y = false

lemma marked_single {α : Type} {last : α → Bool} {x : α} (h : last x = true) :
    Marked last [x] := ⟨[],x,rfl,h,fun y hy => by cases hy⟩

lemma marked_cons {α : Type} {last : α → Bool} {x : α} {xs : List α} (hx : last x = false)
    (h : Marked last xs) : Marked last (x::xs) := by
  obtain ⟨front,y,rfl,hy,hfront⟩ := h
  refine ⟨x::front,y,rfl,hy,fun z hz => ?_⟩
  rcases mem_cons.mp hz with rfl | hz
  · exact hx
  · exact hfront z hz

lemma payload_marked (p : Packet F) (size : ℕ) (f : F) (gs : List F) :
    Marked Out.last (payloadFrom fmt p size f gs) := by
  induction gs generalizing size f with
  | nil => exact marked_single rfl
  | cons g gs ih =>
    rw [payloadFrom]
    split_ifs
    · exact marked_single rfl
    · exact marked_cons rfl (ih _ g)

variable {fmt}

variable (p : Packet F)

lemma parse_held (size : ℕ) (f : F) (gs : List F) (hpos : 0 < size)
    (hlen : gs.length = (size+fmt.headerBytes-1)/fmt.dataBytes) :
    parse fmt (some ⟨p,size,fmt.high f⟩) (gs.map (Beat.mk p)) = payloadFrom fmt p size f gs ∧
      Starts fmt (some ⟨p,size,fmt.high f⟩) (gs.map (Beat.mk p)) ∧
      settled fmt (after fmt (some ⟨p,size,fmt.high f⟩) (gs.map (Beat.mk p))) := by
  have hle := fmt.header_le
  have hdata := fmt.data_pos
  induction gs generalizing size f with
  | nil =>
    have hfew : size+fmt.headerBytes-1 < fmt.dataBytes := by
      by_contra hge
      have := Nat.div_pos (Nat.not_lt.mp hge) hdata
      simp only [length_nil] at hlen
      omega
    have hn : noNeedData fmt ⟨p,size,fmt.high f⟩ := by
      unfold noNeedData Format.offsetBytes
      simp only
      omega
    exact ⟨if_pos hn,trivial,hn⟩
  | cons g gs ih =>
    have hmany : fmt.dataBytes ≤ size+fmt.headerBytes-1 := by
      by_contra hlt
      rw [Nat.div_eq_of_lt (Nat.not_le.mp hlt)] at hlen
      simp at hlen
    have hn : ¬noNeedData fmt ⟨p,size,fmt.high f⟩ := by
      unfold noNeedData Format.offsetBytes
      simp only
      omega
    have hnext : gs.length = (size+fmt.headerBytes-1-fmt.dataBytes)/fmt.dataBytes := by
      have hdiv := Nat.div_eq_sub_div hdata hmany
      rw [length_cons,hdiv] at hlen
      omega
    by_cases hd : size ≤ fmt.dataBytes
    · -- the last beat of the packet
      have hnil : gs = [] := by
        rw [Nat.div_eq_of_lt (by omega)] at hnext
        exact length_eq_zero_iff.mp hnext
      subst hnil
      refine ⟨?_,⟨fun hs => absurd hs hn,trivial⟩,?_⟩
      · simp [parse,emits,advance,drain,hn,hd,payloadFrom,outOf]
      · simp [after,advance,hn,hd,settled]
    · have hgt : fmt.dataBytes < size := Nat.not_le.mp hd
      obtain ⟨hparse,hstarts,hends⟩ := ih (size-fmt.dataBytes) g (by omega) (by
        rw [hnext]
        congr 1
        omega)
      have hadv : advance fmt (some ⟨p,size,fmt.high f⟩) ⟨p,g⟩ =
          some ⟨p,size-fmt.dataBytes,fmt.high g⟩ := (if_neg hn).trans (if_neg hd)
      refine ⟨?_,⟨fun hs => absurd hs hn,?_⟩,?_⟩
      · rw [map_cons,parse_beat,hadv,hparse]
        simp [emits,hn,hd,payloadFrom,outOf]
      · rw [hadv]
        exact hstarts
      · rw [map_cons,after,foldl_cons,hadv]
        exact hends

lemma parse_packet (h : WellFormed fmt p) :
    parse fmt none (toData fmt p) = payload fmt p ∧ InStep fmt p := by
  obtain ⟨hsize,hlen⟩ := h
  have hdata := fmt.data_pos
  by_cases hnone : fmt.sizeOf p.first ≤ fmt.headerBytes
  · have hrest : p.rest = [] := by
      have hle := fmt.header_le
      have hone : (fmt.sizeOf p.first+fmt.dataBytes-1)/fmt.dataBytes ≤ 1 :=
        Nat.lt_succ_iff.mp (Nat.div_lt_of_lt_mul (by omega))
      exact length_eq_zero_iff.mp (by omega)
    have hbeats : toData fmt p = [] := by rw [toData,if_pos hnone,hrest]; rfl
    rw [hbeats]
    exact ⟨(if_pos hnone).symm,⟨by rw [hbeats]; trivial,by rw [hbeats]; trivial⟩⟩
  · have hbeats : toData fmt p = ⟨p,p.first⟩::p.rest.map (Beat.mk p) := by
      rw [toData,if_neg hnone]
      rfl
    have hgt : fmt.headerBytes < fmt.sizeOf p.first := Nat.not_le.mp hnone
    have hload : load fmt ⟨p,p.first⟩ =
        ⟨p,fmt.sizeOf p.first-fmt.headerBytes,fmt.high p.first⟩ := by
      rw [← load_size ⟨p,p.first⟩ hgt]
      rfl
    obtain ⟨hparse,hstarts,hends⟩ :=
      parse_held p (fmt.sizeOf p.first-fmt.headerBytes) p.first p.rest
      (by omega) (by
        have hdiv : (fmt.sizeOf p.first+fmt.dataBytes-1)/fmt.dataBytes =
            (fmt.sizeOf p.first-1)/fmt.dataBytes+1 := by
          rw [show fmt.sizeOf p.first+fmt.dataBytes-1 = fmt.sizeOf p.first-1+fmt.dataBytes by omega,
            Nat.add_div_right _ hdata]
        rw [show fmt.sizeOf p.first-fmt.headerBytes+fmt.headerBytes-1 =
            fmt.sizeOf p.first-1 by omega]
        omega)
    rw [← hload] at hparse hstarts hends
    refine ⟨?_,⟨?_,?_⟩⟩
    · rw [hbeats,parse_beat,payload,if_neg hnone]
      exact hparse
    · rw [hbeats]
      exact ⟨fun _ => hgt,hstarts⟩
    · rw [hbeats]
      exact hends

variable (ps : List (Packet F))

lemma parse_stream (h : ∀ p ∈ ps, InStep fmt p) :
    parse fmt none (ps.flatMap (toData fmt)) = ps.flatMap (fun p => parse fmt none (toData fmt p)) ∧
      Starts fmt none (ps.flatMap (toData fmt)) ∧
      settled fmt (after fmt none (ps.flatMap (toData fmt))) := by
  induction ps with
  | nil => exact ⟨rfl,trivial,trivial⟩
  | cons p ps ih =>
    have hp := h p (by simp)
    obtain ⟨hparse,hstarts,hends⟩ := ih fun q hq => h q (by simp [hq])
    simp only [flatMap_cons]
    refine ⟨?_,starts_append _ _ hp.starts hp.ends hstarts,?_⟩
    · rw [parse_append _ _ hp.ends,hparse]
    · rw [after_append]
      exact after_settled hp.ends hends

lemma parse_labels (held : Option (Held F H)) (bs : List (Beat F))
    (hheld : ∀ q ∈ held, q.packet = p) (hbs : ∀ b ∈ bs, b.packet = p) :
    ∀ o ∈ parse fmt held bs, o.packet = p := by
  induction bs generalizing held with
  | nil =>
    intro o ho
    cases held with
    | none => cases ho
    | some q =>
      simp only [parse,drain] at ho
      split at ho
      · rw [mem_singleton.mp ho]
        exact hheld q rfl
      · cases ho
  | cons b bs ih =>
    intro o ho
    rw [parse_beat] at ho
    rcases mem_append.mp ho with ho | ho
    · cases held with
      | none => cases ho
      | some q =>
        simp only [emits] at ho
        split at ho <;>
        · rw [mem_singleton.mp ho]
          exact hheld q rfl
    · refine ih _ ?_ (fun c hc => hbs c (by simp [hc])) o ho
      intro q hq
      have hb : b.packet = p := hbs b (by simp)
      cases held with
      | none =>
        cases hq
        exact hb
      | some r =>
        simp only [advance] at hq
        split at hq
        · cases hq
          exact hb
        · split at hq
          · cases hq
          · cases hq
            exact hb

lemma parse_packet_label : ∀ o ∈ parse fmt none (toData fmt p), o.packet = p := by
  apply parse_labels
  · intro q hq
    cases hq
  · intro b hb
    obtain ⟨f,-,rfl⟩ := mem_map.mp hb
    rfl

lemma done_outs (h : ∀ p ∈ ps, InStep fmt p) (schedule : List (Bool × Bool))
    (hdone : Done fmt (run fmt schedule (start fmt ps))) :
    (run fmt schedule (start fmt ps)).outs = ps.flatMap fun p => parse fmt none (toData fmt p) := by
  obtain ⟨hparse,hstarts,-⟩ := parse_stream ps h
  have hrun := run_parse schedule (start fmt ps) hstarts
  rw [hdone.1,parse,hdone.2,append_nil] at hrun
  rw [hrun]
  exact hparse

lemma filter_flat :
    (ps.flatMap fun p => parse fmt none (toData fmt p)).filter (fun o => WellFormed fmt o.packet) =
      (ps.filter fun p => WellFormed fmt p).flatMap fun p => parse fmt none (toData fmt p) := by
  induction ps with
  | nil => rfl
  | cons p ps ih =>
    rw [flatMap_cons,filter_append,ih]
    by_cases hp : WellFormed fmt p
    · rw [filter_cons_of_pos (by simpa using hp),flatMap_cons]
      congr 1
      exact filter_eq_self.mpr fun o ho => by simpa [parse_packet_label p o ho] using hp
    · rw [filter_cons_of_neg (by simpa using hp)]
      rw [filter_eq_nil_iff.mpr fun o ho => by simpa [parse_packet_label p o ho] using hp]
      rfl

/-- If the parser is in step after ill-formed packets, they leave no trace in the output. -/
theorem wellformed_unaffected (ps : List (Packet F))
    (h : ∀ p ∈ ps, ¬WellFormed fmt p → InStep fmt p) (schedule schedule' : List (Bool × Bool))
    (hdone : Done fmt (run fmt schedule (start fmt ps)))
    (hdone' : Done fmt (run fmt schedule' (start fmt (ps.filter fun p => WellFormed fmt p)))) :
    (headerOut ps).filter (fun x => WellFormed fmt x.1) =
        headerOut (ps.filter fun p => WellFormed fmt p) ∧
      (run fmt schedule (start fmt ps)).outs.filter (fun o => WellFormed fmt o.packet) =
        (run fmt schedule' (start fmt (ps.filter fun p => WellFormed fmt p))).outs := by
  have hin : ∀ p ∈ ps, InStep fmt p := by
    intro p hp
    by_cases hwf : WellFormed fmt p
    · exact (parse_packet p hwf).2
    · exact h p hp hwf
  refine ⟨?_,?_⟩
  · rw [headerOut,headerOut,filter_map]
    rfl
  · rw [done_outs ps hin schedule hdone,done_outs _ (fun p hp => hin p (mem_filter.mp hp).1)
      schedule' hdone',filter_flat]

end

def accessFormat : Format (BitVec 512) (BitVec 224) (BitVec 288) where
  low f := f.extractLsb' 0 224
  high f := f.extractLsb' 224 288
  getSize f := f.extractLsb' 48 16
  headerBytes := 28
  dataBytes := 64
  header_le := by decide
  data_pos := by decide

def oneBeat (size : ℕ) : Packet (BitVec 512) := ⟨BitVec.ofNat 512 (size*2^48),[]⟩

def steady (n : ℕ) : List (Bool × Bool) := List.replicate n (true,true)

/-- A size below the header is ill-formed and harmless. -/
theorem tiny_packet_ignored :
    (run accessFormat (steady 2) (start accessFormat [oneBeat 20, oneBeat 64])).outs.filter
        (fun o => WellFormed accessFormat o.packet) =
      (run accessFormat (steady 1) (start accessFormat ([oneBeat 20, oneBeat 64].filter
        fun p => WellFormed accessFormat p))).outs := by
  refine (wellformed_unaffected [oneBeat 20,oneBeat 64] ?_ (steady 2) (steady 1)
    ⟨by decide +kernel,by decide +kernel⟩ ⟨by decide +kernel,by decide +kernel⟩).2
  intro p hp hwf
  simp only [mem_cons,not_mem_nil,or_false] at hp
  rcases hp with rfl | rfl
  · have hbeats : toData accessFormat (oneBeat 20) = [] := by decide +kernel
    exact ⟨by rw [hbeats]; trivial,by rw [hbeats]; trivial⟩
  · exact absurd (by decide +kernel) hwf

/-- A packet of one beat with the size 200 swallows the next packet. -/
theorem short_packet_swallows :
    WellFormed accessFormat (oneBeat 64) ∧
    Done accessFormat (run accessFormat (steady 4) (start accessFormat [oneBeat 200, oneBeat 64])) ∧
    Done accessFormat (run accessFormat (steady 4) (start accessFormat [oneBeat 64])) ∧
    [oneBeat 200, oneBeat 64].filter (fun p => WellFormed accessFormat p) = [oneBeat 64] ∧
    (run accessFormat (steady 4) (start accessFormat [oneBeat 200, oneBeat 64])).outs.filter
      (fun o => WellFormed accessFormat o.packet) = [] ∧
    (run accessFormat (steady 4) (start accessFormat [oneBeat 64])).outs =
      [⟨oneBeat 64,0,none,true⟩] :=
  ⟨by decide +kernel,⟨by decide +kernel,by decide +kernel⟩,⟨by decide +kernel,by decide +kernel⟩,
    by decide +kernel,by decide +kernel,by decide +kernel⟩

end Clio.PacketParser
