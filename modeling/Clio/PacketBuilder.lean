import Clio.PacketParser

/-!
# The packet builder

The builder puts a header in front of a payload and shifts the payload up again.
-/

namespace Clio.PacketBuilder

open List PacketParser

variable {F L H : Type} (fmt : Format F L H)

/-- What the builder reads of a header. -/
structure Header (L : Type) where
  size : ℕ
  bits : L
  deriving DecidableEq, Repr

def headerOf (f : F) : Header L := ⟨fmt.sizeOf f,fmt.low f⟩

structure Built (L H : Type) where
  pad : Option L
  data : Option H
  last : Bool
  deriving DecidableEq, Repr

structure State (F L H : Type) where
  headerIn : List (Header L)
  dataIn : List (Out F L H)
  first : Bool
  remainSizeReg : ℕ
  tailReg : Option L
  outs : List (Built L H)

structure Cycle where
  headerValid : Bool
  dataValid : Bool
  ready : Bool
  deriving DecidableEq, Repr

def lastCycleBytes (size : ℕ) : ℕ := size%2^Nat.clog 2 fmt.dataBytes

def lastCycleUseReg (size : ℕ) : Bool :=
  decide (lastCycleBytes fmt size ≤ fmt.headerBytes) && decide (lastCycleBytes fmt size ≠ 0)

def remainSize (s : State F L H) (header : Header L) : ℕ :=
  if s.first then header.size else s.remainSizeReg

def selectedPad (s : State F L H) (header : Header L) : Option L :=
  if s.first then some header.bits else s.tailReg

def lastCycle (s : State F L H) (header : Header L) : Bool :=
  decide (remainSize s header ≤ fmt.dataBytes)

def lastCycleNoData (s : State F L H) (header : Header L) : Bool :=
  lastCycle fmt s header && lastCycleUseReg fmt header.size

def fire (s : State F L H) (header : Header L) (data : Option (Out F L H)) : State F L H :=
  { headerIn := if lastCycle fmt s header then s.headerIn.tail else s.headerIn
    dataIn := if lastCycleNoData fmt s header then s.dataIn else s.dataIn.tail
    first := lastCycle fmt s header
    remainSizeReg := (remainSize s header+2^16-fmt.dataBytes)%2^16
    tailReg := if lastCycleNoData fmt s header then s.tailReg else data.bind Out.ext
    outs := s.outs++[⟨selectedPad s header,
      if lastCycleNoData fmt s header then none else data.map Out.pad,lastCycle fmt s header⟩] }

def step (s : State F L H) (i : Cycle) : State F L H :=
  match if i.headerValid then s.headerIn.head? else none with
  | none => s
  | some header =>
      let data := if i.dataValid then s.dataIn.head? else none
      if i.ready && (data.isSome || lastCycleNoData fmt s header) then fire fmt s header data else s

def run (schedule : List Cycle) (s : State F L H) : State F L H := schedule.foldl (step fmt) s

def start (headers : List (Header L)) (data : List (Out F L H)) : State F L H :=
  ⟨headers,data,true,0,none,[]⟩

/-! ## Packets -/

def originalFrom : ℕ → F → List F → List (Built L H)
  | size, f, [] =>
      [⟨some (fmt.low f),if size ≤ fmt.headerBytes then none else some (fmt.high f),true⟩]
  | size, f, g::gs =>
      ⟨some (fmt.low f),some (fmt.high f),false⟩::originalFrom (size-fmt.dataBytes) g gs

def original (p : Packet F) : List (Built L H) :=
  originalFrom fmt (fmt.sizeOf p.first) p.first p.rest

def dataFrom (p : Packet F) (size : ℕ) (f : F) (gs : List F) : List (Out F L H) :=
  if size ≤ fmt.headerBytes then [] else payloadFrom fmt p (size-fmt.headerBytes) f gs

def Agrees (size : ℕ) : Prop :=
  lastCycleUseReg fmt size = true ↔ (size-1)%fmt.dataBytes+1 ≤ fmt.headerBytes

instance (size : ℕ) : Decidable (Agrees fmt size) := inferInstanceAs (Decidable (_ ↔ _))

lemma agrees_iff_fits {k : ℕ} (hdata : fmt.dataBytes = 2^k) {size : ℕ} (hpos : 1 ≤ size) :
    Agrees fmt size ↔ fmt.headerBytes < fmt.dataBytes ∨ ¬fmt.dataBytes ∣ size := by
  have hle := fmt.header_le
  have hd := fmt.data_pos
  have hbytes : lastCycleBytes fmt size = size%fmt.dataBytes := by
    rw [lastCycleBytes,hdata,Nat.clog_pow 2 k (by decide)]
  rw [Agrees,lastCycleUseReg,hbytes,Bool.and_eq_true,decide_eq_true_eq,decide_eq_true_eq,
    Nat.dvd_iff_mod_eq_zero]
  have hlt := Nat.mod_lt size hd
  by_cases hzero : size%fmt.dataBytes = 0
  · have hlast : (size-1)%fmt.dataBytes = fmt.dataBytes-1 := by
      obtain ⟨c,hc⟩ := Nat.dvd_of_mod_eq_zero hzero
      have hcpos : 1 ≤ c := by
        rcases Nat.eq_zero_or_pos c with rfl | h
        · omega
        · exact h
      obtain ⟨c,rfl⟩ := Nat.exists_eq_add_of_le' hcpos
      rw [hc,Nat.mul_add,Nat.mul_one,Nat.add_sub_assoc hd,Nat.mul_add_mod,
        Nat.mod_eq_of_lt (by omega)]
    omega
  · have hlast : (size-1)%fmt.dataBytes+1 = size%fmt.dataBytes := by
      have hsplit := Nat.div_add_mod size fmt.dataBytes
      have heq : size-1 = fmt.dataBytes*(size/fmt.dataBytes)+(size%fmt.dataBytes-1) := by omega
      rw [heq,Nat.mul_add_mod,Nat.mod_eq_of_lt (by omega)]
      omega
    omega

variable {fmt}

structure Cur (fmt : Format F L H) (p : Packet F) (f : F) (gs : List F) (size : ℕ)
    (todo : List (Packet F)) (s : State F L H) : Prop where
  headerIn : s.headerIn = headerOf fmt p.first::todo.map fun q => headerOf fmt q.first
  dataIn : s.dataIn = dataFrom fmt p size f gs++todo.flatMap (payload fmt)
  length : gs.length = (size-1)/fmt.dataBytes
  pos : 1 ≤ size
  small : size < 2^16
  phase : (size-1)%fmt.dataBytes = (fmt.sizeOf p.first-1)%fmt.dataBytes
  remain : remainSize s (headerOf fmt p.first) = size
  pad : selectedPad s (headerOf fmt p.first) = some (fmt.low f)

def Good (fmt : Format F L H) (p : Packet F) : Prop :=
  WellFormed fmt p ∧ Agrees fmt (fmt.sizeOf p.first)

/-- A state and what is still to be put out. -/
inductive Stage (fmt : Format F L H) : List (Built L H) → State F L H → Prop where
  | between (s : State F L H) (todo : List (Packet F)) (hgood : ∀ p ∈ todo, Good fmt p)
      (hfirst : s.first = true) (hheader : s.headerIn = todo.map fun q => headerOf fmt q.first)
      (hdata : s.dataIn = todo.flatMap (payload fmt)) :
      Stage fmt (todo.flatMap (original fmt)) s
  | within (s : State F L H) (p : Packet F) (f : F) (gs : List F) (size : ℕ)
      (todo : List (Packet F)) (hgood : ∀ q ∈ p::todo, Good fmt q) (hfirst : s.first = false)
      (hcur : Cur fmt p f gs size todo s) :
      Stage fmt (originalFrom fmt size f gs++todo.flatMap (original fmt)) s

lemma size_pos {p : Packet F} (h : WellFormed fmt p) : 1 ≤ fmt.sizeOf p.first := by
  by_contra hzero
  have hlen := h.2
  have hd := fmt.data_pos
  rw [show fmt.sizeOf p.first = 0 by omega,Nat.zero_add,Nat.div_eq_of_lt (by omega)] at hlen
  omega

lemma rest_length {p : Packet F} (h : WellFormed fmt p) :
    p.rest.length = (fmt.sizeOf p.first-1)/fmt.dataBytes := by
  have hpos := size_pos h
  have hlen := h.2
  rw [show fmt.sizeOf p.first+fmt.dataBytes-1 = fmt.sizeOf p.first-1+fmt.dataBytes by omega,
    Nat.add_div_right _ fmt.data_pos] at hlen
  omega

lemma between_cur {s : State F L H} {p : Packet F} {todo : List (Packet F)}
    (hwf : WellFormed fmt p) (hfirst : s.first = true)
    (hheader : s.headerIn = (p::todo).map fun q => headerOf fmt q.first)
    (hdata : s.dataIn = (p::todo).flatMap (payload fmt)) :
    Cur fmt p p.first p.rest (fmt.sizeOf p.first) todo s := by
  refine ⟨hheader,hdata,rest_length hwf,size_pos hwf,(fmt.getSize p.first).isLt,rfl,?_,?_⟩
  · simp [remainSize,hfirst,headerOf]
  · simp [selectedPad,hfirst,headerOf]

section

variable {p : Packet F} {f g : F} {gs : List F} {size : ℕ} {todo : List (Packet F)}
  {s : State F L H}

lemma last_cycle_iff (h : Cur fmt p f gs size todo s) :
    lastCycle fmt s (headerOf fmt p.first) = gs.isEmpty := by
  have hd := fmt.data_pos
  have hpos := h.pos
  rw [lastCycle,h.remain]
  cases gs with
  | nil =>
    have hlen := h.length
    rw [length_nil,eq_comm,Nat.div_eq_zero_iff] at hlen
    simp only [isEmpty_nil,decide_eq_true_eq]
    omega
  | cons g gs =>
    have hlen := h.length
    have hge : ¬size ≤ fmt.dataBytes := by
      intro hle
      rw [Nat.div_eq_of_lt (by omega)] at hlen
      simp at hlen
    simpa using hge

lemma no_data_iff (h : Cur fmt p f [] size todo s) (hgood : Good fmt p) :
    lastCycleNoData fmt s (headerOf fmt p.first) = decide (size ≤ fmt.headerBytes) := by
  have hlast := last_cycle_iff h
  have hle : size ≤ fmt.dataBytes := by
    rw [lastCycle,h.remain] at hlast
    simpa using hlast
  have hpos := h.pos
  have hagree : lastCycleUseReg fmt (fmt.sizeOf p.first) = true ↔ size ≤ fmt.headerBytes := by
    have hphase := h.phase
    rw [Nat.mod_eq_of_lt (by omega)] at hphase
    have hiff := hgood.2
    rw [Agrees,← hphase] at hiff
    rw [hiff]
    omega
  rw [lastCycleNoData,hlast,isEmpty_nil,Bool.true_and]
  exact Bool.eq_iff_iff.mpr (hagree.trans decide_eq_true_iff.symm)

lemma more_data (h : Cur fmt p f (g::gs) size todo s) :
    lastCycleNoData fmt s (headerOf fmt p.first) = false := by
  rw [lastCycleNoData,last_cycle_iff h]
  rfl

lemma fire_last_reg (h : Cur fmt p f [] size todo s) (hgood : ∀ q ∈ p::todo, Good fmt q)
    (hsize : size ≤ fmt.headerBytes) (data : Option (Out F L H)) :
    Stage fmt (todo.flatMap (original fmt)) (fire fmt s (headerOf fmt p.first) data) ∧
      (fire fmt s (headerOf fmt p.first) data).outs = s.outs++originalFrom fmt size f [] := by
  have hlast := last_cycle_iff h
  have hno := no_data_iff h (hgood p (by simp))
  rw [isEmpty_nil] at hlast
  rw [decide_eq_true hsize] at hno
  refine ⟨.between _ todo (fun q hq => hgood q (by simp [hq])) ?_ ?_ ?_,?_⟩
  · simp [fire,hlast]
  · simp [fire,hlast,h.headerIn]
  · simp [fire,hno,h.dataIn,dataFrom,hsize]
  · simp [fire,hno,hlast,h.pad,originalFrom,hsize]

lemma fire_last_data (h : Cur fmt p f [] size todo s) (hgood : ∀ q ∈ p::todo, Good fmt q)
    (hsize : ¬size ≤ fmt.headerBytes) :
    Stage fmt (todo.flatMap (original fmt))
        (fire fmt s (headerOf fmt p.first) s.dataIn.head?) ∧
      (fire fmt s (headerOf fmt p.first) s.dataIn.head?).outs =
        s.outs++originalFrom fmt size f [] := by
  have hlast := last_cycle_iff h
  have hno := no_data_iff h (hgood p (by simp))
  rw [isEmpty_nil] at hlast
  rw [decide_eq_false hsize] at hno
  have hdata : s.dataIn = ⟨p,fmt.high f,none,true⟩::todo.flatMap (payload fmt) := by
    rw [h.dataIn,dataFrom,if_neg hsize,payloadFrom]
    rfl
  refine ⟨.between _ todo (fun q hq => hgood q (by simp [hq])) ?_ ?_ ?_,?_⟩
  · simp [fire,hlast]
  · simp [fire,hlast,h.headerIn]
  · simp [fire,hno,hdata]
  · simp [fire,hno,hlast,h.pad,hdata,originalFrom,hsize]

lemma data_cons (p : Packet F) (f g : F) (gs : List F) (hsize : fmt.dataBytes < size) :
    ∃ last, dataFrom fmt p size f (g::gs) =
      ⟨p,fmt.high f,some (fmt.low g),last⟩::dataFrom fmt p (size-fmt.dataBytes) g gs := by
  have hle := fmt.header_le
  rw [dataFrom,if_neg (by omega),payloadFrom,dataFrom]
  by_cases hfew : size-fmt.headerBytes ≤ fmt.dataBytes
  · exact ⟨true,by rw [if_pos hfew,if_pos (by omega)]⟩
  · refine ⟨false,?_⟩
    rw [if_neg hfew,if_neg (by omega),Nat.sub_right_comm]

lemma fire_more (h : Cur fmt p f (g::gs) size todo s) (hgood : ∀ q ∈ p::todo, Good fmt q) :
    Stage fmt (originalFrom fmt (size-fmt.dataBytes) g gs++todo.flatMap (original fmt))
        (fire fmt s (headerOf fmt p.first) s.dataIn.head?) ∧
      (fire fmt s (headerOf fmt p.first) s.dataIn.head?).outs =
        s.outs++[⟨some (fmt.low f),some (fmt.high f),false⟩] := by
  have hd := fmt.data_pos
  have hlast := last_cycle_iff h
  have hno := more_data h
  rw [isEmpty_cons] at hlast
  have hsize : fmt.dataBytes < size := by
    rw [lastCycle,h.remain] at hlast
    simpa using hlast
  have hsmall := h.small
  obtain ⟨last,hdata⟩ := data_cons p f g gs hsize
  have hin := h.dataIn
  rw [hdata,cons_append] at hin
  have hfirst : (fire fmt s (headerOf fmt p.first) s.dataIn.head?).first = false := hlast
  refine ⟨.within _ p g gs (size-fmt.dataBytes) todo hgood hfirst ⟨?_,?_,?_,?_,?_,?_,?_,?_⟩,?_⟩
  · simp [fire,hlast,h.headerIn]
  · simp [fire,hno,hin]
  · have hlen := h.length
    rw [length_cons,Nat.div_eq_sub_div hd (by omega)] at hlen
    rw [show size-fmt.dataBytes-1 = size-1-fmt.dataBytes by omega]
    omega
  · omega
  · omega
  · rw [← h.phase,show size-fmt.dataBytes-1 = size-1-fmt.dataBytes by omega,
      ← Nat.mod_eq_sub_mod (by omega)]
  · rw [remainSize,hfirst,if_neg (by simp)]
    simp only [fire,h.remain]
    omega
  · rw [selectedPad,hfirst,if_neg (by simp)]
    simp [fire,hno,hin]
  · simp [fire,hno,hlast,h.pad,hin]

lemma cur_step (h : Cur fmt p f gs size todo s) (hgood : ∀ q ∈ p::todo, Good fmt q) (i : Cycle) :
    step fmt s i = s ∧ i ≠ ⟨true,true,true⟩ ∨
      ∃ b rest, originalFrom fmt size f gs++todo.flatMap (original fmt) = b::rest ∧
        Stage fmt rest (step fmt s i) ∧ (step fmt s i).outs = s.outs++[b] := by
  obtain ⟨headerValid,dataValid,ready⟩ := i
  cases headerValid with
  | false => exact .inl ⟨rfl,by simp⟩
  | true =>
    have hhead : s.headerIn.head? = some (headerOf fmt p.first) := by rw [h.headerIn]; rfl
    cases ready with
    | false => exact .inl ⟨by simp [step,hhead],by simp⟩
    | true =>
      cases gs with
      | nil =>
        by_cases hsize : size ≤ fmt.headerBytes
        · have hno := no_data_iff h (hgood p (by simp))
          rw [decide_eq_true hsize] at hno
          have hstep : step fmt s ⟨true,dataValid,true⟩ = fire fmt s (headerOf fmt p.first)
              (if dataValid then s.dataIn.head? else none) := by
            simp [step,hhead,hno]
          obtain ⟨hstage,houts⟩ := fire_last_reg h hgood hsize
            (if dataValid then s.dataIn.head? else none)
          rw [hstep]
          exact .inr ⟨_,_,rfl,hstage,houts⟩
        · have hno := no_data_iff h (hgood p (by simp))
          rw [decide_eq_false hsize] at hno
          cases dataValid with
          | false => exact .inl ⟨by simp [step,hhead,hno],by simp⟩
          | true =>
            have hsome : s.dataIn.head?.isSome = true := by
              rw [h.dataIn,dataFrom,if_neg hsize]
              rfl
            have hstep : step fmt s ⟨true,true,true⟩ =
                fire fmt s (headerOf fmt p.first) s.dataIn.head? := by
              simp [step,hhead,hsome]
            obtain ⟨hstage,houts⟩ := fire_last_data h hgood hsize
            rw [hstep]
            exact .inr ⟨_,_,rfl,hstage,houts⟩
      | cons g gs =>
        have hno := more_data h
        cases dataValid with
        | false => exact .inl ⟨by simp [step,hhead,hno],by simp⟩
        | true =>
          have hlast := last_cycle_iff h
          have hsize : fmt.dataBytes < size := by
            rw [lastCycle,h.remain] at hlast
            simpa using hlast
          obtain ⟨last,hdata⟩ := data_cons p f g gs hsize
          have hsome : s.dataIn.head?.isSome = true := by
            rw [h.dataIn,hdata]
            rfl
          have hstep : step fmt s ⟨true,true,true⟩ =
              fire fmt s (headerOf fmt p.first) s.dataIn.head? := by
            simp [step,hhead,hsome]
          obtain ⟨hstage,houts⟩ := fire_more h hgood
          rw [hstep]
          exact .inr ⟨_,_,rfl,hstage,houts⟩

end

lemma stage_step {rest : List (Built L H)} {s : State F L H} (hs : Stage fmt rest s) (i : Cycle) :
    ∃ rest', Stage fmt rest' (step fmt s i) ∧ (step fmt s i).outs++rest' = s.outs++rest ∧
      rest'.length ≤ rest.length-if i = ⟨true,true,true⟩ then 1 else 0 := by
  have hmove : ∀ (p : Packet F) (f : F) (gs : List F) (size : ℕ) (todo : List (Packet F)),
      Cur fmt p f gs size todo s → (∀ q ∈ p::todo, Good fmt q) →
      rest = originalFrom fmt size f gs++todo.flatMap (original fmt) →
      ∃ rest', Stage fmt rest' (step fmt s i) ∧ (step fmt s i).outs++rest' = s.outs++rest ∧
        rest'.length ≤ rest.length-if i = ⟨true,true,true⟩ then 1 else 0 := by
    intro p f gs size todo hcur hgood hrest
    rcases cur_step hcur hgood i with ⟨hstep,hnot⟩ | ⟨b,rest',hb,hstage,houts⟩
    · refine ⟨rest,by rw [hstep]; exact hs,by rw [hstep],?_⟩
      rw [if_neg hnot]
      exact le_refl _
    · refine ⟨rest',hstage,by rw [houts,hrest,hb,append_assoc]; rfl,?_⟩
      rw [hrest,hb,length_cons]
      split_ifs <;> omega
  cases hs with
  | between _ todo hgood hfirst hheader hdata =>
    cases todo with
    | nil =>
      have hstep : step fmt s i = s := by simp [step,hheader]
      refine ⟨[],?_,by rw [hstep]; rfl,Nat.zero_le _⟩
      rw [hstep]
      exact .between s [] hgood hfirst hheader hdata
    | cons p todo =>
      exact hmove p p.first p.rest _ todo (between_cur (hgood p (by simp)).1 hfirst hheader hdata)
        hgood rfl
  | within _ p f gs size todo hgood hfirst hcur => exact hmove p f gs size todo hcur hgood rfl

def Cycle.full (i : Cycle) : Bool := decide (i = ⟨true,true,true⟩)

lemma stage_run (schedule : List Cycle) {rest : List (Built L H)} {s : State F L H}
    (hs : Stage fmt rest s) :
    ∃ rest', (run fmt schedule s).outs++rest' = s.outs++rest ∧
      rest'.length ≤ rest.length-schedule.countP Cycle.full := by
  induction schedule generalizing rest s with
  | nil => exact ⟨rest,rfl,le_refl _⟩
  | cons i schedule ih =>
    obtain ⟨mid,hmid,houts,hlen⟩ := stage_step hs i
    obtain ⟨rest',hrun,hlen'⟩ := ih hmid
    refine ⟨rest',hrun.trans houts,?_⟩
    by_cases hfull : i = ⟨true,true,true⟩
    · rw [if_pos hfull] at hlen
      rw [countP_cons_of_pos (by simp [Cycle.full,hfull])]
      omega
    · rw [if_neg hfull] at hlen
      rw [countP_cons_of_neg (by simp [Cycle.full,hfull])]
      omega

/-! ## The parser to its end -/

def parserWork (s : PacketParser.State F L H) : ℕ :=
  2*s.todo.length+if s.held.isSome then 1 else 0

lemma cycle_beat (fmt : Format F L H) (held : Option (Held F H)) (b : Beat F) (ready : Bool) :
    (cycle fmt held (some b) ready).2.2 = true ∨
      ready = false ∧ cycle fmt held (some b) ready = (held,none,false) := by
  cases held with
  | none =>
    refine .inl ?_
    simp only [cycle]
    split_ifs <;> rfl
  | some q =>
    cases ready with
    | false =>
      refine .inr ⟨rfl,?_⟩
      simp only [cycle,Bool.false_eq_true,if_false,ite_self]
    | true =>
      refine .inl ?_
      simp only [cycle,if_true]
      split_ifs <;> rfl

lemma cycle_no_beat (fmt : Format F L H) (held : Option (Held F H)) (ready : Bool) :
    (∃ q, held = some q ∧ drain fmt held ≠ [] ∧ (cycle fmt held none ready).1 = none ∧
        (cycle fmt held none ready).2.2 = false) ∨
      cycle fmt held none ready = (held,none,false) ∧ (ready = true → drain fmt held = []) := by
  cases held with
  | none => exact .inr ⟨rfl,fun _ => rfl⟩
  | some q =>
    by_cases hq : noNeedData fmt q
    · cases ready with
      | false => exact .inr ⟨by simp [cycle,hq],by simp⟩
      | true => exact .inl ⟨q,rfl,by simp [drain,hq],by simp [cycle,hq],by simp [cycle,hq]⟩
    · exact .inr ⟨by simp [cycle,hq],fun _ => by simp [drain,hq]⟩

lemma done_step {s : PacketParser.State F L H} (h : Done fmt s) (offer ready : Bool) :
    PacketParser.step fmt s offer ready = s := by
  obtain ⟨todo,held,outs⟩ := s
  obtain ⟨rfl,hdrain⟩ := h
  have hseen : (if offer then ([] : List (Beat F)).head? else none) = none := ite_self none
  rcases cycle_no_beat fmt held ready with ⟨q,-,hne,-⟩ | ⟨hcycle,-⟩
  · exact absurd hdrain hne
  · simp only [PacketParser.step,hseen,hcycle]
    simp

lemma parser_step (fmt : Format F L H) (s : PacketParser.State F L H) (offer ready : Bool) :
    parserWork (PacketParser.step fmt s offer ready)+1 ≤ parserWork s ∨
      PacketParser.step fmt s offer ready = s ∧ (offer = true → ready = true → Done fmt s) := by
  obtain ⟨todo,held,outs⟩ := s
  cases hseen : (if offer then todo.head? else none) with
  | none =>
    rcases cycle_no_beat fmt held ready with ⟨q,rfl,-,hnone,htaken⟩ | ⟨hcycle,hdrain⟩
    · refine .inl ?_
      simp [PacketParser.step,hseen,parserWork,hnone,htaken]
    · refine .inr ⟨by simp [PacketParser.step,hseen,hcycle],fun ho hr => ⟨?_,hdrain hr⟩⟩
      rw [if_pos ho] at hseen
      exact List.head?_eq_none_iff.mp hseen
  | some b =>
    rcases cycle_beat fmt held b ready with htaken | ⟨rfl,hcycle⟩
    · refine .inl ?_
      have hpos : 0 < todo.length := by
        cases todo with
        | nil => cases offer <;> cases hseen
        | cons c cs => exact Nat.succ_pos _
      simp only [PacketParser.step,hseen,parserWork,htaken,if_true,length_tail]
      split_ifs <;> omega
    · exact .inr ⟨by simp [PacketParser.step,hseen,hcycle],by simp⟩

def ready (c : Bool × Bool) : Bool := c.1 && c.2

lemma parser_done (schedule : List (Bool × Bool)) (s : PacketParser.State F L H)
    (h : parserWork s ≤ schedule.countP ready ∨ Done fmt s) :
    Done fmt (PacketParser.run fmt schedule s) := by
  induction schedule generalizing s with
  | nil =>
    rcases h with h | h
    · obtain ⟨todo,held,outs⟩ := s
      have hzero : todo.length = 0 ∧ held.isSome = false := by
        simp only [parserWork,countP_nil] at h
        split_ifs at h with hheld
        · omega
        · exact ⟨by omega,by simpa using hheld⟩
      exact ⟨eq_nil_of_length_eq_zero hzero.1,by
        rw [Option.isSome_eq_false_iff,Option.isNone_iff_eq_none] at hzero
        rw [PacketParser.run,foldl_nil,hzero.2]
        rfl⟩
    · exact h
  | cons c schedule ih =>
    refine ih (PacketParser.step fmt s c.1 c.2) ?_
    rcases h with h | h
    · rcases parser_step fmt s c.1 c.2 with hless | ⟨hsame,hend⟩
      · refine .inl ?_
        have hcount : (c::schedule).countP ready ≤ schedule.countP ready+1 := by
          rw [countP_cons]
          split_ifs <;> omega
        omega
      · rw [hsame]
        cases hc : ready c with
        | true =>
          rw [ready,Bool.and_eq_true] at hc
          exact .inr (hend hc.1 hc.2)
        | false =>
          rw [countP_cons_of_neg (by simp [hc])] at h
          exact .inl h
    · exact .inr (by rw [done_step h]; exact h)

lemma parser_outs (ps : List (Packet F)) (h : ∀ p ∈ ps, WellFormed fmt p)
    (schedule : List (Bool × Bool)) :
    (PacketParser.run fmt schedule (PacketParser.start fmt ps)).outs <+:
        ps.flatMap (payload fmt) ∧
      (2*(ps.flatMap (toData fmt)).length ≤ schedule.countP ready →
        (PacketParser.run fmt schedule (PacketParser.start fmt ps)).outs =
          ps.flatMap (payload fmt)) := by
  have hin : ∀ p ∈ ps, InStep fmt p := fun p hp => (parse_packet p (h p hp)).2
  have hall : (ps.flatMap fun p => parse fmt none (toData fmt p)) = ps.flatMap (payload fmt) :=
    flatMap_congr fun p hp => (parse_packet p (h p hp)).1
  obtain ⟨hparse,hstarts,-⟩ := parse_stream ps hin
  refine ⟨?_,fun henough => ?_⟩
  · have hrun := run_parse schedule (PacketParser.start fmt ps) hstarts
    rw [← hall,← hparse]
    exact ⟨_,hrun⟩
  · rw [← hall]
    exact done_outs ps hin schedule (parser_done schedule _ (.inl henough))

/-! ## Bytes -/

/-- The bytes of the two parts of a fragment. -/
structure Bytes (fmt : Format F L H) (B : Type) where
  low : L → List B
  high : H → List B
  low_length : ∀ x, (low x).length = fmt.headerBytes
  high_length : ∀ x, (high x).length = fmt.dataBytes-fmt.headerBytes

section

variable {B : Type} (r : Bytes fmt B)

def Bytes.ofFragment (f : F) : List B := r.low (fmt.low f)++r.high (fmt.high f)

def Bytes.ofOut (o : Out F L H) : List B := r.high o.pad++o.ext.elim [] r.low

def Bytes.ofBuilt (b : Built L H) : List B := b.pad.elim [] r.low++b.data.elim [] r.high

def Bytes.ofPacket (p : Packet F) : List B :=
  ((p.first::p.rest).flatMap r.ofFragment).take (fmt.sizeOf p.first)

lemma fragment_length (f : F) : (r.ofFragment f).length = fmt.dataBytes := by
  have := fmt.header_le
  rw [Bytes.ofFragment,length_append,r.low_length,r.high_length]
  omega

lemma original_from_bytes (size : ℕ) (f : F) (gs : List F)
    (hlen : gs.length = (size-1)/fmt.dataBytes) :
    ((originalFrom fmt size f gs).flatMap r.ofBuilt).take size =
      ((f::gs).flatMap r.ofFragment).take size := by
  induction gs generalizing size f with
  | nil =>
    simp only [originalFrom,flatMap_cons,flatMap_nil,append_nil,Bytes.ofBuilt,
      Bytes.ofFragment,Option.elim_some]
    split_ifs with hsize
    · rw [Option.elim_none,append_nil,take_append_of_le_length (by rwa [r.low_length])]
    · rfl
  | cons g gs ih =>
    have hd := fmt.data_pos
    have hge : fmt.dataBytes ≤ size-1 := by
      by_contra hlt
      rw [Nat.div_eq_of_lt (Nat.not_le.mp hlt)] at hlen
      simp at hlen
    have hnext : gs.length = (size-fmt.dataBytes-1)/fmt.dataBytes := by
      rw [length_cons,Nat.div_eq_sub_div hd hge] at hlen
      rw [show size-fmt.dataBytes-1 = size-1-fmt.dataBytes by omega]
      omega
    have hbeat : r.ofBuilt ⟨some (fmt.low f),some (fmt.high f),false⟩ = r.ofFragment f := rfl
    rw [originalFrom,flatMap_cons,flatMap_cons,hbeat,take_append,
      take_append,fragment_length,ih _ g hnext]

lemma next_length {size : ℕ} {g : F} {gs : List F}
    (hlen : (g::gs).length = (size+fmt.headerBytes-1)/fmt.dataBytes)
    (hmore : fmt.dataBytes < size) :
    gs.length = (size-fmt.dataBytes+fmt.headerBytes-1)/fmt.dataBytes := by
  rw [length_cons,Nat.div_eq_sub_div fmt.data_pos (by omega)] at hlen
  rw [show size-fmt.dataBytes+fmt.headerBytes-1 = size+fmt.headerBytes-1-fmt.dataBytes by omega]
  omega

lemma payload_from_bytes (p : Packet F) (size : ℕ) (f : F) (gs : List F) (hpos : 0 < size)
    (hlen : gs.length = (size+fmt.headerBytes-1)/fmt.dataBytes) :
    ((payloadFrom fmt p size f gs).flatMap r.ofOut).take size =
      (r.high (fmt.high f)++gs.flatMap r.ofFragment).take size := by
  have hd := fmt.data_pos
  have hle := fmt.header_le
  induction gs generalizing size f with
  | nil => simp [payloadFrom,Bytes.ofOut]
  | cons g gs ih =>
    have hsplit : r.high (fmt.high f)++(g::gs).flatMap r.ofFragment =
        (r.high (fmt.high f)++r.low (fmt.low g))++
          (r.high (fmt.high g)++gs.flatMap r.ofFragment) := by
      simp [Bytes.ofFragment]
    have hbeat : (r.high (fmt.high f)++r.low (fmt.low g)).length = fmt.dataBytes := by
      rw [length_append,r.low_length,r.high_length]
      omega
    rw [hsplit,payloadFrom]
    split_ifs with hfew
    · rw [take_append_of_le_length (by rwa [hbeat])]
      simp [Bytes.ofOut]
    · have hnext := next_length hlen (Nat.not_le.mp hfew)
      rw [flatMap_cons,take_append,take_append,hbeat,
        show (r.ofOut ⟨p,fmt.high f,some (fmt.low g),false⟩ : List B) =
          r.high (fmt.high f)++r.low (fmt.low g) from rfl,hbeat,ih _ g (by omega) hnext]

end

/-! ## Beats and their marks -/

lemma original_shape (fmt : Format F L H) (size : ℕ) (f : F) (gs : List F) :
    Marked Built.last (originalFrom fmt size f gs) ∧
      (originalFrom fmt size f gs).length = gs.length+1 := by
  induction gs generalizing size f with
  | nil => exact ⟨marked_single rfl,rfl⟩
  | cons g gs ih =>
    obtain ⟨hmark,hlen⟩ := ih (size-fmt.dataBytes) g
    exact ⟨marked_cons rfl hmark,by rw [originalFrom,length_cons,hlen,length_cons]⟩

lemma payload_count (fmt : Format F L H) (p : Packet F) (size : ℕ) (f : F) (gs : List F)
    (hpos : 0 < size) (hlen : gs.length = (size+fmt.headerBytes-1)/fmt.dataBytes) :
    (payloadFrom fmt p size f gs).length = (size+fmt.dataBytes-1)/fmt.dataBytes := by
  have hd := fmt.data_pos
  have hle := fmt.header_le
  have hone : size ≤ fmt.dataBytes → (size+fmt.dataBytes-1)/fmt.dataBytes = 1 := by
    intro hfew
    rw [show size+fmt.dataBytes-1 = size-1+fmt.dataBytes by omega,Nat.add_div_right _ hd,
      Nat.div_eq_of_lt (by omega)]
  induction gs generalizing size f with
  | nil =>
    rw [length_nil,eq_comm,Nat.div_eq_zero_iff] at hlen
    exact (hone (by omega)).symm
  | cons g gs ih =>
    rw [payloadFrom]
    split_ifs with hfew
    · exact (hone hfew).symm
    · have hnext := next_length hlen (Nat.not_le.mp hfew)
      have hcount := ih (size-fmt.dataBytes) g (by omega) hnext fun hle' => by
        rw [show size-fmt.dataBytes+fmt.dataBytes-1 = size-fmt.dataBytes-1+fmt.dataBytes by omega,
          Nat.add_div_right _ hd,Nat.div_eq_of_lt (by omega)]
      rw [length_cons,hcount,show size-fmt.dataBytes+fmt.dataBytes-1 = size-1 by omega,
        show size+fmt.dataBytes-1 = size-1+fmt.dataBytes by omega,Nat.add_div_right _ hd]

lemma payload_right {B : Type} (r : Bytes fmt B) {p : Packet F} (h : WellFormed fmt p) :
    (payload fmt p).length = (fmt.sizeOf p.first-fmt.headerBytes+fmt.dataBytes-1)/fmt.dataBytes ∧
      (fmt.headerBytes < fmt.sizeOf p.first → Marked Out.last (payload fmt p)) ∧
      ((payload fmt p).flatMap r.ofOut).take (fmt.sizeOf p.first-fmt.headerBytes) =
        (r.ofPacket p).drop fmt.headerBytes := by
  have hd := fmt.data_pos
  have hlen := rest_length h
  by_cases hnone : fmt.sizeOf p.first ≤ fmt.headerBytes
  · have hsize : fmt.sizeOf p.first-fmt.headerBytes = 0 := by omega
    rw [payload,if_pos hnone,hsize]
    refine ⟨?_,fun hgt => absurd hgt (Nat.not_lt.mpr hnone),?_⟩
    · rw [Nat.div_eq_of_lt (by omega)]
      rfl
    · rw [Bytes.ofPacket,drop_take,hsize]
      simp
  · have hrest : p.rest.length =
        (fmt.sizeOf p.first-fmt.headerBytes+fmt.headerBytes-1)/fmt.dataBytes := by
      rw [hlen]
      congr 1
      omega
    rw [payload,if_neg hnone]
    refine ⟨payload_count fmt p _ p.first p.rest (by omega) hrest,fun _ => payload_marked ..,?_⟩
    rw [payload_from_bytes r p _ p.first p.rest (by omega) hrest,Bytes.ofPacket,drop_take,
      flatMap_cons,Bytes.ofFragment,append_assoc,
      drop_left' (r.low_length (fmt.low p.first))]

lemma original_right {B : Type} (r : Bytes fmt B) {p : Packet F} (h : WellFormed fmt p) :
    (original fmt p).length = p.rest.length+1 ∧ Marked Built.last (original fmt p) ∧
      ((original fmt p).flatMap r.ofBuilt).take (fmt.sizeOf p.first) = r.ofPacket p := by
  obtain ⟨hmark,hlen⟩ := original_shape fmt (fmt.sizeOf p.first) p.first p.rest
  exact ⟨hlen,hmark,original_from_bytes r _ p.first p.rest (rest_length h)⟩

/-- The parser emits every packet, and the builder puts it together if the size is right. -/
theorem builder_parser_inverse {B : Type} (r : Bytes fmt B) (ps : List (Packet F))
    (hwf : ∀ p ∈ ps, WellFormed fmt p) (schedule : List (Bool × Bool)) :
    (PacketParser.run fmt schedule (PacketParser.start fmt ps)).outs <+:
        ps.flatMap (payload fmt) ∧
      (∀ p ∈ ps, (payload fmt p).length =
          (fmt.sizeOf p.first-fmt.headerBytes+fmt.dataBytes-1)/fmt.dataBytes ∧
        (fmt.headerBytes < fmt.sizeOf p.first → Marked Out.last (payload fmt p)) ∧
        ((payload fmt p).flatMap r.ofOut).take (fmt.sizeOf p.first-fmt.headerBytes) =
          (r.ofPacket p).drop fmt.headerBytes) ∧
      (∀ p ∈ ps, (original fmt p).length = p.rest.length+1 ∧
        Marked Built.last (original fmt p) ∧
        ((original fmt p).flatMap r.ofBuilt).take (fmt.sizeOf p.first) = r.ofPacket p) ∧
      (2*(ps.flatMap (toData fmt)).length ≤ schedule.countP ready →
        (PacketParser.run fmt schedule (PacketParser.start fmt ps)).outs =
          ps.flatMap (payload fmt) ∧
        ((∀ p ∈ ps, Agrees fmt (fmt.sizeOf p.first)) → ∀ cycles : List Cycle,
          (run fmt cycles (start ((headerOut ps).map fun x => headerOf fmt x.2)
            (PacketParser.run fmt schedule (PacketParser.start fmt ps)).outs)).outs <+:
              ps.flatMap (original fmt) ∧
          ((ps.flatMap (original fmt)).length ≤ cycles.countP Cycle.full →
            (run fmt cycles (start ((headerOut ps).map fun x => headerOf fmt x.2)
              (PacketParser.run fmt schedule (PacketParser.start fmt ps)).outs)).outs =
                ps.flatMap (original fmt)))) := by
  obtain ⟨hbegins,hall⟩ := parser_outs ps hwf schedule
  refine ⟨hbegins,fun p hp => payload_right r (hwf p hp),fun p hp => original_right r (hwf p hp),
    fun henough => ⟨hall henough,fun hagree cycles => ?_⟩⟩
  rw [hall henough]
  have hheaders : ((headerOut ps).map fun x => headerOf fmt x.2) =
      ps.map fun q => headerOf fmt q.first := by
    rw [headerOut,map_map]
    rfl
  have hstage : Stage fmt (ps.flatMap (original fmt))
      (start ((headerOut ps).map fun x => headerOf fmt x.2) (ps.flatMap (payload fmt))) :=
    .between _ ps (fun p hp => ⟨hwf p hp,hagree p hp⟩) rfl hheaders rfl
  obtain ⟨rest,hrun,hlen⟩ := stage_run cycles hstage
  refine ⟨⟨rest,hrun⟩,fun hfull => ?_⟩
  have hnil : rest = [] := eq_nil_of_length_eq_zero (by omega)
  rw [hnil,append_nil] at hrun
  exact hrun

/-! ## Formats of bits -/

def bitFormat (h d : ℕ) (hle : h ≤ d) (hpos : 0 < d) :
    Format (BitVec (8*d)) (BitVec (8*h)) (BitVec (8*(d-h))) where
  low f := f.extractLsb' 0 (8*h)
  high f := f.extractLsb' (8*h) (8*(d-h))
  getSize f := f.extractLsb' 0 16
  headerBytes := h
  dataBytes := d
  header_le := hle
  data_pos := hpos

def bytesOf (k : ℕ) (x : BitVec (8*k)) : List (BitVec 8) :=
  (List.range k).map fun i => x.extractLsb' (8*i) 8

def bitBytes (h d : ℕ) (hle : h ≤ d) (hpos : 0 < d) :
    Bytes (bitFormat h d hle hpos) (BitVec 8) where
  low := bytesOf h
  high := bytesOf (d-h)
  low_length x := by simp [bytesOf, bitFormat]
  high_length x := by simp [bytesOf, bitFormat]

def shortHeader := bitFormat 2 4 (by decide) (by decide)

def wideHeader := bitFormat 4 4 (by decide) (by decide)

def twelveBytes := bitFormat 4 12 (by decide) (by decide)

def fiveBytes : Packet (BitVec (8*4)) := ⟨0x06050005#32,[0x07#32]⟩

theorem five_bytes_rebuilt :
    WellFormed shortHeader fiveBytes ∧
      (run shortHeader [⟨true,true,true⟩,⟨true,false,false⟩,
        ⟨true,false,true⟩,⟨true,true,true⟩]
        (start ((headerOut [fiveBytes]).map fun x =>
            headerOf shortHeader x.2)
          (PacketParser.run shortHeader (steady 4)
            (PacketParser.start shortHeader [fiveBytes])).outs)).outs =
        [fiveBytes].flatMap (original shortHeader) := by
  have hwf : ∀ p ∈ [fiveBytes], WellFormed shortHeader p := by
    decide +kernel
  have hall := (builder_parser_inverse (bitBytes 2 4 (by decide) (by decide)) [fiveBytes] hwf
    (steady 4)).2.2.2 (by decide +kernel)
  refine ⟨hwf _ (by simp),?_⟩
  exact (hall.2 (by decide +kernel) [⟨true,true,true⟩,⟨true,false,false⟩,⟨true,false,true⟩,
    ⟨true,true,true⟩]).2 (by decide +kernel)

def onlyHeader : Packet (BitVec (8*4)) := ⟨0x00000004#32,[]⟩

lemma header_waits (cycles : List Cycle) :
    (run wideHeader cycles
      (start [headerOf wideHeader onlyHeader.first] [])).outs = [] := by
  have hno : lastCycleNoData wideHeader
      (start [headerOf wideHeader onlyHeader.first] [])
      (headerOf wideHeader onlyHeader.first) = false := by
    decide +kernel
  have hstep : ∀ i : Cycle, step wideHeader
      (start [headerOf wideHeader onlyHeader.first] []) i =
      start [headerOf wideHeader onlyHeader.first] [] := by
    intro i
    obtain ⟨headerValid,dataValid,ready⟩ := i
    cases headerValid with
    | false => rfl
    | true =>
      simp only [step,start] at hno ⊢
      simp [hno]
  induction cycles with
  | nil => rfl
  | cons i cycles ih =>
    rw [run,foldl_cons,hstep i]
    exact ih

def thirteenBytes : Packet (BitVec (8*12)) := ⟨13#96,[0#96]⟩

/-- A header as wide as a beat never leaves the builder, nor does a beat of thirteen bytes. -/
theorem builder_waits :
    WellFormed wideHeader onlyHeader ∧
    payload wideHeader onlyHeader = [] ∧
    (original wideHeader onlyHeader).length = 1 ∧
    (∀ cycles, (run wideHeader cycles
      (start [headerOf wideHeader onlyHeader.first] [])).outs = []) ∧
    WellFormed twelveBytes thirteenBytes ∧
    (original twelveBytes thirteenBytes).length = 2 ∧
    (run twelveBytes (List.replicate 8 ⟨true,true,true⟩)
      (start [headerOf twelveBytes thirteenBytes.first]
        (payload twelveBytes thirteenBytes))).outs.length = 1 :=
  ⟨by decide +kernel,by decide +kernel,by decide +kernel,header_waits,by decide +kernel,
    by decide +kernel,by decide +kernel⟩

end Clio.PacketBuilder
