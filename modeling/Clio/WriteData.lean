import Clio.MemoryAccess
import Clio.PacketParser

/-!
# Payloads on their way to the write port

A packet is split into header and payload.
-/

namespace Clio.WriteData

open List CoreMemTypes MemoryAccess PacketParser

abbrev Frag := BitVec 512
abbrev Data := Out Frag (BitVec 224) (BitVec 288)

/-- `fromWiderBits` of the access header. -/
def headerOf (bits : Frag) : LegoMemAccessHeader where
  header :=
    { pid := bits.extractLsb' 0 16
      tag := bits.extractLsb' 16 8
      reqType := bits.extractLsb' 24 8
      reqStatus := bits.extractLsb' 32 4
      flagRoute := bits.getLsbD 36
      flagRepl := bits.getLsbD 37
      rsvd := bits.extractLsb' 38 2
      seqId := bits.extractLsb' 40 8
      size := bits.extractLsb' 48 16
      cont := bits.extractLsb' 64 16
      srcPort := bits.extractLsb' 80 8
      destPort := bits.extractLsb' 88 8
      destIp := bits.extractLsb' 96 32 }
  addr := bits.extractLsb' 128 64
  length := bits.extractLsb' 192 32

structure Access where
  packet : Packet Frag
  pte : PageTableEntry
  deriving DecidableEq, Repr

def Access.header (a : Access) : LegoMemAccessHeader := headerOf a.packet.first

def Access.answer (a : Access) : Output := memoryAccessUnit a.pte a.header

structure State where
  parser : PacketParser.State Frag (BitVec 224) (BitVec 288)
  headers : List Access
  headerIn : List Access
  wrDataSignal : List Bool
  wrCmd : List AxiStreamDMACommand
  written : List Data

inductive Action where
  | cycle (offer ready : Bool)
  | header
  | join
  | filter

/-- `outs` of the parser is the queue in front of the filter. -/
def exec (s : State) : Action → State
  | .cycle offer ready => { s with parser := step accessFormat s.parser offer ready }
  | .header =>
      match s.headers with
      | [] => s
      | a::rest => { s with
          headers := rest
          headerIn := if isValidAccessRequest a.header then s.headerIn++[a] else s.headerIn }
  | .join =>
      match s.headerIn with
      | [] => s
      | a::rest => { s with
          headerIn := rest
          wrDataSignal := s.wrDataSignal++a.answer.wrDataSignal.toList
          wrCmd := s.wrCmd++a.answer.wrCmd.toList }
  | .filter =>
      match s.wrDataSignal, s.parser.outs with
      | signal::signals, o::outs => { s with
          parser := { s.parser with outs := outs }
          wrDataSignal := if o.last then signals else signal::signals
          written := if signal then s.written++[o] else s.written }
      | _, _ => s

def start (as : List Access) : State :=
  ⟨PacketParser.start accessFormat (as.map Access.packet),as,[],[],[],[]⟩

def run (acts : List Action) (s : State) : State := acts.foldl exec s

def signalsOf (as : List Access) : List Bool :=
  (as.filter fun a => isValidAccessRequest a.header).flatMap fun a => a.answer.wrDataSignal.toList

def cmdsOf (as : List Access) : List AxiStreamDMACommand :=
  (as.filter fun a => isValidAccessRequest a.header).flatMap fun a => a.answer.wrCmd.toList

/-- The filter over whole streams. -/
def filterBySignal : List Bool → List Data → List Data
  | _, [] => []
  | [], _::_ => []
  | signal::signals, o::outs =>
      (if signal then [o] else [])++filterBySignal
        (if o.last then signals else signal::signals) outs

structure Inv (as : List Access) (s : State) : Prop where
  starts : Starts accessFormat s.parser.held s.parser.todo
  valid : ∀ a ∈ s.headerIn, isValidAccessRequest a.header = true
  data : s.written++filterBySignal (s.wrDataSignal++signalsOf (s.headerIn++s.headers))
      (s.parser.outs++parse accessFormat s.parser.held s.parser.todo) =
    filterBySignal (signalsOf as) (parse accessFormat none
      ((as.map Access.packet).flatMap (toData accessFormat)))
  cmds : s.wrCmd++cmdsOf (s.headerIn++s.headers) = cmdsOf as

lemma move_header (q : List Access) (a : Access) (rest : List Access) :
    ((if isValidAccessRequest a.header then q++[a] else q)++rest).filter
        (fun a => isValidAccessRequest a.header) =
      (q++a::rest).filter (fun a => isValidAccessRequest a.header) := by
  by_cases h : isValidAccessRequest a.header = true
  · simp [h]
  · simp [h]

section

variable (as : List Access) (s : State)
include as s

lemma cycle_inv (offer ready : Bool) (hs : Inv as s) :
    Inv as (exec s (.cycle offer ready)) := by
  obtain ⟨hparse,hstarts⟩ := step_parse s.parser offer ready hs.starts
  refine ⟨hstarts,hs.valid,?_,hs.cmds⟩
  have hdata := hs.data
  rw [← hparse] at hdata
  exact hdata

lemma header_inv (hs : Inv as s) : Inv as (exec s .header) := by
  cases hq : s.headers with
  | nil => simpa [exec,hq] using hs
  | cons a rest =>
    have hsignal : signalsOf ((if isValidAccessRequest a.header then s.headerIn++[a]
        else s.headerIn)++rest) = signalsOf (s.headerIn++s.headers) := by
      rw [signalsOf,move_header,hq,← signalsOf]
    have hcmd : cmdsOf ((if isValidAccessRequest a.header then s.headerIn++[a]
        else s.headerIn)++rest) = cmdsOf (s.headerIn++s.headers) := by
      rw [cmdsOf,move_header,hq,← cmdsOf]
    simp only [exec,hq]
    refine ⟨hs.starts,?_,?_,?_⟩
    · intro b hb
      simp only at hb
      split at hb
      · next hv =>
        rcases mem_append.mp hb with hb | hb
        · exact hs.valid b hb
        · rw [mem_singleton.mp hb]
          exact hv
      · exact hs.valid b hb
    · simp only [hsignal]
      exact hs.data
    · simp only [hcmd]
      exact hs.cmds

lemma join_inv (hs : Inv as s) : Inv as (exec s .join) := by
  cases hq : s.headerIn with
  | nil => simpa [exec,hq] using hs
  | cons a rest =>
    have hv : isValidAccessRequest a.header = true := hs.valid a (by simp [hq])
    have hdata := hs.data
    have hcmds := hs.cmds
    rw [hq] at hdata hcmds
    have hsignal : signalsOf (a::rest++s.headers) =
        a.answer.wrDataSignal.toList++signalsOf (rest++s.headers) := by
      simp [signalsOf,hv]
    have hcmd : cmdsOf (a::rest++s.headers) = a.answer.wrCmd.toList++cmdsOf (rest++s.headers) := by
      simp [cmdsOf,hv]
    rw [hsignal,← append_assoc] at hdata
    rw [hcmd,← append_assoc] at hcmds
    simp only [exec,hq]
    exact ⟨hs.starts,fun b hb => hs.valid b (by simp [hq,hb]),hdata,hcmds⟩

lemma filter_inv (hs : Inv as s) : Inv as (exec s .filter) := by
  cases hsig : s.wrDataSignal with
  | nil => simpa [exec,hsig] using hs
  | cons signal signals =>
    cases hout : s.parser.outs with
    | nil => simpa [exec,hsig,hout] using hs
    | cons o outs =>
      have hdata := hs.data
      rw [hsig,hout,cons_append,cons_append,filterBySignal] at hdata
      simp only [exec,hsig,hout]
      refine ⟨hs.starts,hs.valid,?_,hs.cmds⟩
      rw [← hdata]
      cases signal <;> cases hl : o.last <;> simp

lemma step_inv (act : Action) (hs : Inv as s) :
    Inv as (exec s act) := by
  cases act with
  | cycle offer ready => exact cycle_inv as s offer ready hs
  | header => exact header_inv as s hs
  | join => exact join_inv as s hs
  | filter => exact filter_inv as s hs

end

lemma run_inv (as : List Access) (acts : List Action) (s : State) (hs : Inv as s) :
    Inv as (run acts s) := by
  induction acts generalizing s with
  | nil => exact hs
  | cons act acts ih => exact ih (exec s act) (step_inv as s act hs)

/-- A WRITE has a payload, a READ has none. -/
structure Proper (a : Access) : Prop where
  wellFormed : WellFormed accessFormat a.packet
  valid : isValidAccessRequest a.header = true
  payload : a.header.header.reqType = RequestType.WRITE ↔ 28 < a.header.header.size.toNat

def okWrites (as : List Access) : List Access :=
  as.filter fun a => a.answer.wrDataSignal == some true

lemma filter_marked (signal : Bool) (signals : List Bool) (ds rest : List Data)
    (h : Marked Out.last ds) :
    filterBySignal (signal::signals) (ds++rest) =
      (if signal then ds else [])++filterBySignal signals rest := by
  obtain ⟨front,o,rfl,hlast,hfront⟩ := h
  induction front with
  | nil =>
    rw [nil_append,singleton_append,filterBySignal,hlast]
    rfl
  | cons d front ih =>
    have hd : d.last = false := hfront d (by simp)
    have hrest := ih fun e he => hfront e (by simp [he])
    rw [cons_append,cons_append,filterBySignal,hd,if_neg Bool.false_ne_true,hrest]
    cases signal <;> simp

lemma size_of_header (a : Access) :
    accessFormat.sizeOf a.packet.first = a.header.header.size.toNat := rfl

lemma answer_cases (a : Access) (h : Proper a) :
    (∃ ok, a.answer.wrDataSignal = some ok ∧
      a.answer.wrCmd = (if ok then some (assignFromJoin a.pte a.header) else none) ∧
      Marked Out.last (payload accessFormat a.packet)) ∨
    (a.answer.wrDataSignal = none ∧ a.answer.wrCmd = none ∧
      payload accessFormat a.packet = []) := by
  by_cases hw : a.header.header.reqType = RequestType.WRITE
  · left
    have hresp : RequestType.resp a.header.header.reqType = RequestType.WRITE_RESP := by
      rw [hw]
      decide
    have hsize := h.payload.mp hw
    refine ⟨decide ((requestChecker a.pte a.header).header.reqStatus = RequestStatus.OKAY),?_,?_,?_⟩
    · simp [Access.answer,memoryAccessUnit,requestChecker,hresp]
    · simp [Access.answer,memoryAccessUnit,requestChecker,hresp]
    · rw [payload,if_neg (by rw [size_of_header]; exact Nat.not_le.mpr hsize)]
      exact payload_marked _ _ _ _ _
  · right
    have hsize := fun hs => hw (h.payload.mpr hs)
    have hresp : RequestType.resp a.header.header.reqType ≠ RequestType.WRITE_RESP := by
      have hvalid := h.valid
      simp only [isValidAccessRequest,hw,false_or,decide_eq_true_eq] at hvalid
      rcases hvalid with hr | hr <;> rw [hr] <;> decide
    refine ⟨?_,?_,?_⟩
    · simp [Access.answer,memoryAccessUnit,requestChecker,hresp]
    · simp [Access.answer,memoryAccessUnit,requestChecker,hresp]
    · exact if_pos (by rw [size_of_header]; exact Nat.not_lt.mp hsize)

lemma ok_writes_cons (a : Access) (as : List Access) :
    okWrites (a::as) = (if a.answer.wrDataSignal = some true then [a] else [])++okWrites as := by
  unfold okWrites
  by_cases h : a.answer.wrDataSignal = some true <;> simp [h]

section

variable (as : List Access) (h : ∀ a ∈ as, Proper a)
include as h

lemma filter_stream :
    filterBySignal (signalsOf as) (as.flatMap fun a => payload accessFormat a.packet) =
      (okWrites as).flatMap fun a => payload accessFormat a.packet := by
  induction as with
  | nil => rfl
  | cons a as ih =>
    have ha := h a (by simp)
    have hrest := ih fun b hb => h b (by simp [hb])
    have hsignals : signalsOf (a::as) = a.answer.wrDataSignal.toList++signalsOf as := by
      simp [signalsOf,ha.valid]
    rw [flatMap_cons,hsignals,ok_writes_cons,flatMap_append]
    rcases answer_cases a ha with ⟨ok,hsignal,-,hmarked⟩ | ⟨hsignal,-,hnone⟩
    · rw [hsignal,Option.toList_some,singleton_append,filter_marked ok _ _ _ hmarked,hrest]
      cases ok <;> simp
    · rw [hsignal,hnone,Option.toList_none,nil_append,nil_append,hrest]
      simp

lemma cmds_stream :
    cmdsOf as = (okWrites as).map fun a => assignFromJoin a.pte a.header := by
  induction as with
  | nil => rfl
  | cons a as ih =>
    have ha := h a (by simp)
    have hrest := ih fun b hb => h b (by simp [hb])
    have hcmds : cmdsOf (a::as) = a.answer.wrCmd.toList++cmdsOf as := by
      simp [cmdsOf,ha.valid]
    rw [hcmds,ok_writes_cons,map_append,hrest]
    rcases answer_cases a ha with ⟨ok,hsignal,hcmd,-⟩ | ⟨hsignal,hcmd,-⟩
    · rw [hcmd,hsignal]
      cases ok <;> simp
    · rw [hcmd,hsignal]
      simp

lemma parse_accesses :
    parse accessFormat none ((as.map Access.packet).flatMap (toData accessFormat)) =
        as.flatMap (fun a => payload accessFormat a.packet) ∧
      Starts accessFormat none ((as.map Access.packet).flatMap (toData accessFormat)) := by
  have hin : ∀ p ∈ as.map Access.packet, InStep accessFormat p := by
    intro p hp
    obtain ⟨a,ha,rfl⟩ := mem_map.mp hp
    exact (parse_packet a.packet (h a ha).wellFormed).2
  obtain ⟨hparse,hstarts,-⟩ := parse_stream (as.map Access.packet) hin
  refine ⟨?_,hstarts⟩
  rw [hparse,flatMap_map]
  simp only [List.flatMap]
  congr 1
  apply map_congr_left
  intro a ha
  exact (parse_packet a.packet (h a ha).wellFormed).1

lemma inv_prefixes (s : State) (hs : Inv as s) :
    s.written <+: (okWrites as).flatMap (fun a => payload accessFormat a.packet) ∧
      s.wrCmd <+: (okWrites as).map (fun a => assignFromJoin a.pte a.header) := by
  have hdata := hs.data
  have hcmds := hs.cmds
  rw [(parse_accesses as h).1,filter_stream as h] at hdata
  rw [cmds_stream as h] at hcmds
  exact ⟨⟨_,hdata⟩,⟨_,hcmds⟩⟩

lemma start_inv : Inv as (start as) := ⟨(parse_accesses as h).2,by simp [start],rfl,rfl⟩

lemma ok_write_marked (a : Access) (ha : a ∈ okWrites as) :
    Marked Out.last (payload accessFormat a.packet) := by
  obtain ⟨hmem,hok⟩ := mem_filter.mp ha
  rcases answer_cases a (h a hmem) with ⟨ok,-,-,hmarked⟩ | ⟨hsignal,-,-⟩
  · exact hmarked
  · simp [hsignal] at hok

end

def Finished (s : State) : Prop :=
  Done accessFormat s.parser ∧ s.parser.outs = [] ∧ s.headers = [] ∧ s.headerIn = []

/-- The data are the payloads of the `OKAY` writes in order, each with its own marker. -/
theorem payloads_meet_descriptors (as : List Access) (h : ∀ a ∈ as, Proper a) (acts : List Action) :
    (∀ a ∈ okWrites as, Marked Out.last (payload accessFormat a.packet)) ∧
    (run acts (start as)).written <+:
      (okWrites as).flatMap (fun a => payload accessFormat a.packet) ∧
    (run acts (start as)).wrCmd <+: (okWrites as).map (fun a => assignFromJoin a.pte a.header) ∧
    (Finished (run acts (start as)) →
      (run acts (start as)).written =
        (okWrites as).flatMap (fun a => payload accessFormat a.packet) ∧
      (run acts (start as)).wrCmd =
        (okWrites as).map (fun a => assignFromJoin a.pte a.header)) := by
  have hinv := run_inv as acts (start as) (start_inv as h)
  obtain ⟨hwritten,hcmd⟩ := inv_prefixes as h _ hinv
  refine ⟨ok_write_marked as h,hwritten,hcmd,?_⟩
  rintro ⟨⟨htodo,hdrain⟩,houts,hheaders,hin⟩
  have hdata := hinv.data
  have hcmds := hinv.cmds
  rw [(parse_accesses as h).1,filter_stream as h,houts,htodo,parse,hdrain,append_nil,
    filterBySignal,append_nil] at hdata
  rw [cmds_stream as h,hheaders,hin] at hcmds
  refine ⟨hdata,?_⟩
  rw [← hcmds]
  simp [cmdsOf]

def oneWrite (length : ℕ) (used : Bool) : Access :=
  ⟨⟨BitVec.ofNat 512 (0x50*2^24+(28+length)*2^48+length*2^192),[]⟩,{ emptyPte with used := used }⟩

def twoPackets : List Action :=
  [.cycle true true, .cycle true true, .header, .header, .join, .join, .filter, .filter]

theorem rejected_write_dropped :
    (run twoPackets (start [oneWrite 20 false, oneWrite 36 true])).written =
        payload accessFormat (oneWrite 36 true).packet ∧
      (run twoPackets (start [oneWrite 20 false, oneWrite 36 true])).wrCmd = [⟨0,36⟩] := by
  have hproper : ∀ a ∈ [oneWrite 20 false,oneWrite 36 true], Proper a := by
    intro a ha
    simp only [mem_cons,not_mem_nil,or_false] at ha
    rcases ha with rfl | rfl
    · exact ⟨by decide +kernel,by decide +kernel,by decide +kernel⟩
    · exact ⟨by decide +kernel,by decide +kernel,by decide +kernel⟩
  obtain ⟨-,-,-,hend⟩ := payloads_meet_descriptors _ hproper twoPackets
  obtain ⟨hdata,hcmds⟩ := hend ⟨⟨by decide +kernel,by decide +kernel⟩,by decide +kernel,
    by decide +kernel,by decide +kernel⟩
  rw [hdata,hcmds]
  exact ⟨by decide +kernel,by decide +kernel⟩

/-- The signal of a WRITE without payload lets the data of a rejected one through. -/
theorem empty_write_takes_data :
    WellFormed accessFormat (oneWrite 0 true).packet ∧
    WellFormed accessFormat (oneWrite 36 false).packet ∧
    Finished (run twoPackets (start [oneWrite 0 true, oneWrite 36 false])) ∧
    okWrites [oneWrite 0 true, oneWrite 36 false] = [oneWrite 0 true] ∧
    payload accessFormat (oneWrite 0 true).packet = [] ∧
    (run twoPackets (start [oneWrite 0 true, oneWrite 36 false])).wrCmd = [⟨0,0⟩] ∧
    (run twoPackets (start [oneWrite 0 true, oneWrite 36 false])).written =
      payload accessFormat (oneWrite 36 false).packet ∧
    payload accessFormat (oneWrite 36 false).packet ≠ [] :=
  ⟨by decide +kernel,by decide +kernel,⟨⟨by decide +kernel,by decide +kernel⟩,by decide +kernel,
    by decide +kernel,by decide +kernel⟩,by decide +kernel,by decide +kernel,by decide +kernel,
    by decide +kernel,by decide +kernel⟩

end Clio.WriteData
