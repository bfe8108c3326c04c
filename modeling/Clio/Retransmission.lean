import Clio.Machine
import Clio.Memory
import Clio.UnackedBuffer

/-!
# What is retransmitted

The buffer with its data mover, which executes commands in the order they were issued.
-/

namespace Clio.Retransmission

open Function StateTable UnackedBuffer Memory Machine

/-- A packet as it is handed over. -/
structure Packet where
  route : RouteInfo
  header : NetAxis64
  rest : List NetAxis64
  deriving DecidableEq, Repr

def Packet.beats (p : Packet) : List NetAxis64 := p.header::p.rest

def Packet.slot (p : Packet) : SlotId := buffSlotId p.header

def Packet.address (p : Packet) : ℕ := bufferAddress p.slot (buffWindowIdx p.header)

def bytesOf (beats : List NetAxis64) : List Byte := beats.flatMap NetAxis64.bytes

def Packet.bytes (p : Packet) : List Byte := bytesOf p.beats

structure Copy where
  slot : SlotId
  length : BitVec 16
  bytes : List Byte
  deriving DecidableEq, Repr

inductive Cmd where
  | write (cmd : DmCmd)
  | read (cmd : DmCmd)
  deriving DecidableEq, Repr

structure System where
  buf : BufState
  mem : ℕ → Byte
  cmds : List Cmd
  wrData : List NetAxis64
  rdData : List NetAxis64
  txBuffRouteInfo : List RouteInfo
  txBuffPayload : List NetAxis64
  /-- the packet the receive machine works on, as far as it has read it -/
  taking : Option Packet
  handed : List Packet
  sending : Option Copy
  emitted : List Copy

def beatsOf (bytes : List Byte) : List NetAxis64 :=
  let n := (bytes.length+7)/8
  (List.range n).map (fun i => ⟨(bytes.drop (8*i)).take 8, decide (i+1 = n)⟩)

def takePacket : List NetAxis64 → Option (List NetAxis64 × List NetAxis64)
  | [] => none
  | beat::beats =>
      if beat.last then some ([beat],beats)
      else (takePacket beats).map (fun x => (beat::x.1,x.2))

def doRead (m : System) (cmd : DmCmd) (cmds : List Cmd) : System :=
  { m with cmds := cmds, rdData := m.rdData++beatsOf (load m.mem cmd.startAddress cmd.btt) }

def doWrite (m : System) (address : ℕ) (bytes : List Byte) (cmds : List Cmd)
    (wrData : List NetAxis64) : System :=
  { m with cmds := cmds, wrData := wrData, mem := store m.mem address bytes }

/-- The next command is executed; a write waits for its data. -/
def mover (m : System) : System :=
  match m.cmds with
  | [] => m
  | .read cmd::cmds => doRead m cmd cmds
  | .write cmd::cmds =>
      match takePacket m.wrData with
      | none => m
      | some (beats,wrData) =>
          doWrite m cmd.startAddress ((bytesOf beats).take cmd.btt) cmds wrData

def hand (m : System) (p : Packet) : System :=
  { m with txBuffRouteInfo := m.txBuffRouteInfo++[p.route],
           txBuffPayload := m.txBuffPayload++p.beats }

def callRecv (m : System) (seePayload seeRoute : Bool) : System :=
  let payload := see seePayload m.txBuffPayload
  let route := see seeRoute m.txBuffRouteInfo
  let call := recvStep m.buf payload route
  let issued := { m with buf := call.1, cmds := m.cmds++call.2.wrCmd.toList.map .write,
                         wrData := m.wrData++call.2.wrData.toList }
  match m.buf.recv, payload, route with
  | .recvInfo, some packet, some info =>
      { issued with txBuffPayload := m.txBuffPayload.tail,
                    txBuffRouteInfo := m.txBuffRouteInfo.tail, taking := some ⟨info,packet,[]⟩ }
  | .recvPayload, some packet, _ =>
      let taking := m.taking.map (fun p => { p with rest := p.rest++[packet] })
      if packet.last then
        { issued with txBuffPayload := m.txBuffPayload.tail, taking := none,
                      handed := m.handed++taking.toList }
      else { issued with txBuffPayload := m.txBuffPayload.tail, taking := taking }
  | _, _, _ => issued

def callRetrans (m : System) (req : Option RetransReq) (seeData : Bool) : System :=
  let data := see seeData m.rdData
  let call := retransStep m.buf req data
  let reads := (call.2.rdCmd1.toList++call.2.rdCmd2.toList).map Cmd.read
  let issued := { m with buf := call.1, cmds := m.cmds++reads }
  match executing m.buf, data with
  | some r, some beat =>
      let used := { issued with rdData := m.rdData.tail }
      match call.2.rtHeader with
      | some info => { used with sending := some ⟨r.slotid,info.length,[]⟩ }
      | none =>
          let sending := m.sending.map (fun c => { c with bytes := c.bytes++beat.bytes })
          if beat.last then
            { used with sending := none, emitted := m.emitted++sending.toList }
          else { used with sending := sending }
  | _, _ => issued

inductive Action where
  | hand (p : Packet)
  | call (req : Option RetransReq) (seePayload seeRoute seeData : Bool)
  | mover
  deriving DecidableEq, Repr

def exec (m : System) (a : Action) : Option System :=
  match a with
  | .hand p => some (hand m p)
  | .call req seePayload seeRoute seeData =>
      some (callRetrans (callRecv m seePayload seeRoute) req seeData)
  | .mover => some (mover m)

/-- Board memory may hold anything at first. -/
def boot (mem : ℕ → Byte) : System := ⟨powerUp,mem,[],[],[],[],[],none,[],none,[]⟩

def Faithful (handed : List Packet) (c : Copy) : Prop :=
  ∃ p ∈ handed, p.slot = c.slot ∧ p.route.length = c.length ∧ p.bytes = c.bytes

instance (handed : List Packet) (c : Copy) : Decidable (Faithful handed c) :=
  inferInstanceAs (Decidable (∃ p ∈ handed, _))

/-- The last beat is marked and no other. -/
def ended : List NetAxis64 → Bool
  | [] => false
  | [beat] => beat.last
  | beat::next::beats => !beat.last && ended (next::beats)

/-- Only the end is marked, the UDP length is right and the packet fits its place. -/
def WellFormed (p : Packet) : Prop :=
  p.rest ≠ [] ∧ ended p.beats = true ∧ p.bytes ≠ [] ∧
    p.bytes.length+8 = p.route.length.toNat ∧ p.route.length.toNat ≤ maxPacketSize

instance (p : Packet) : Decidable (WellFormed p) := inferInstanceAs (Decidable (_ ∧ _))

def openPlace (b : BufState) : Option ℕ :=
  match b.retrans with
  | .retransHeader req seq => some (startAddr req seq)
  | _ => none

def nextPlace (b : BufState) : Option ℕ :=
  match b.retrans with
  | .readLen req seq => some (startAddr req seq)
  | _ => none

def takenPlace (m : System) (seePayload seeRoute : Bool) : Option ℕ :=
  match m.buf.recv, see seePayload m.txBuffPayload, see seeRoute m.txBuffRouteInfo with
  | .recvInfo, some packet, some info => some (writeCmd packet info).startAddress
  | _, _, _ => none

def Untouched (m : System) (seePayload seeRoute : Bool) : Prop :=
  ∀ a ∈ openPlace m.buf, takenPlace m seePayload seeRoute ≠ some a

def Buffered (m : System) : Prop := ∀ a ∈ nextPlace m.buf, ∃ p ∈ m.handed, p.address = a

def Allowed (m : System) (a : Action) : Prop :=
  match a with
  | .hand p => WellFormed p
  | .call _ seePayload seeRoute _ => Untouched m seePayload seeRoute ∧ Buffered m
  | .mover => True

instance (m : System) (a : Action) : Decidable (Allowed m a) := match a with
  | .hand p => inferInstanceAs (Decidable (WellFormed p))
  | .call _ seePayload seeRoute _ =>
      inferInstanceAs
        (Decidable ((∀ a ∈ openPlace m.buf, takenPlace m seePayload seeRoute ≠ some a) ∧
        ∀ a ∈ nextPlace m.buf, ∃ p ∈ m.handed, p.address = a))
  | .mover => inferInstanceAs (Decidable True)

lemma ended_cons (beat : NetAxis64) (beats : List NetAxis64) (h : beats ≠ []) :
    ended (beat::beats) = true ↔ beat.last = false ∧ ended beats = true := by
  obtain ⟨next,more,rfl⟩ := List.exists_cons_of_ne_nil h
  simp [ended]

lemma ended_split (pre rest : List NetAxis64) (beat : NetAxis64)
    (h : ended (pre++beat::rest) = true) : (beat.last = true ↔ rest = []) := by
  induction pre with
  | nil =>
    cases rest with
    | nil => simpa [ended] using h
    | cons next more => simp [((ended_cons beat _ (by simp)).mp h).1]
  | cons first pre ih => exact ih ((ended_cons first _ (by simp)).mp h).2

lemma take_packet_eq (packet data unwritten more : List NetAxis64)
    (hended : ended packet = true) (h : data++unwritten = packet++more)
    {beats rest : List NetAxis64} (htake : takePacket data = some (beats,rest)) :
    beats = packet ∧ rest++unwritten = more := by
  induction packet generalizing data beats rest with
  | nil => cases hended
  | cons beat packet ih =>
    cases data with
    | nil => cases htake
    | cons first data =>
      simp only [List.cons_append,List.cons.injEq] at h
      obtain ⟨rfl,h⟩ := h
      have hlast := ended_split [] packet first hended
      rw [takePacket] at htake
      split_ifs at htake with hl
      · obtain rfl := hlast.mp hl
        simp only [Option.some.injEq,Prod.mk.injEq] at htake
        obtain ⟨rfl,rfl⟩ := htake
        exact ⟨rfl,h⟩
      · have hne : packet ≠ [] := fun hp => hl (hlast.mpr hp)
        obtain ⟨⟨x,y⟩,hsome,hxy⟩ := Option.map_eq_some_iff.mp htake
        simp only [Prod.mk.injEq] at hxy
        obtain ⟨rfl,rfl⟩ := hxy
        obtain ⟨rfl,hrest⟩ := ih data ((ended_cons first packet hne).mp hended).2 h hsome
        exact ⟨rfl,hrest⟩

lemma bytes_of_append (xs ys : List NetAxis64) : bytesOf (xs++ys) = bytesOf xs++bytesOf ys := by
  rw [bytesOf,bytesOf,bytesOf,List.flatMap_append]

lemma chunks_take (bytes : List Byte) (last : ℕ → Bool) (k : ℕ) :
    bytesOf ((List.range k).map (fun i => ⟨(bytes.drop (8*i)).take 8, last i⟩)) =
      bytes.take (8*k) := by
  induction k with
  | zero => simp [bytesOf]
  | succ k ih =>
    rw [List.range_succ,List.map_append,bytes_of_append,ih,Nat.mul_succ,List.take_add]
    simp [bytesOf]

lemma bytes_of_beats (bytes : List Byte) : bytesOf (beatsOf bytes) = bytes := by
  rw [beatsOf,chunks_take bytes (fun i => decide (i+1 = (bytes.length+7)/8))]
  exact List.take_of_length_le (by omega)

lemma beats_of_split {bytes : List Byte} {pre rest : List NetAxis64} {beat : NetAxis64}
    (h : pre++beat::rest = beatsOf bytes) : (beat.last = true ↔ rest = []) := by
  have hlen := congrArg List.length h
  have hget := congrArg (fun l => l[pre.length]?) h
  simp only [beatsOf,List.length_append,List.length_cons,List.length_map,List.length_range]
    at hlen
  simp only [beatsOf,List.getElem?_append_right (Nat.le_refl _),Nat.sub_self,
    List.getElem?_cons_zero,List.getElem?_map,List.getElem?_range (show pre.length <
      (bytes.length+7)/8 by omega),Option.map_some,Option.some.injEq] at hget
  rw [hget]
  simp only [decide_eq_true_eq]
  rw [← List.length_eq_zero_iff]
  omega

lemma beats_of_ne_nil {bytes : List Byte} (h : bytes ≠ []) : beatsOf bytes ≠ [] := by
  have hpos := List.length_pos_iff.mpr h
  apply List.ne_nil_of_length_pos
  simp only [beatsOf,List.length_map,List.length_range]
  omega

lemma word_beat (x : ℕ) : beatsOf (leBytes 8 x) = [⟨leBytes 8 x,true⟩] := by
  have hlen := length_le_bytes 8 x
  simp [beatsOf,hlen,List.take_of_length_le (hlen.le)]

lemma rd_length_beat (length : BitVec 16) (last : Bool) :
    rdLength ⟨leBytes 8 length.toNat,last⟩ = length := by
  have := length.isLt
  rw [rdLength,le_nat_bytes,Nat.mod_eq_of_lt (by omega),BitVec.ofNat_toNat,BitVec.setWidth_eq]

section

lemma window_idx_lt (packet : NetAxis64) : buffWindowIdx packet < windowSize :=
  Nat.mod_lt _ (by decide)

lemma place_apart (slot slot' : SlotId) (w w' : ℕ)
    (hne : bufferAddress slot w ≠ bufferAddress slot' w') :
    bufferAddress slot w+maxPacketSize ≤ bufferAddress slot' w' ∨
      bufferAddress slot' w'+maxPacketSize ≤ bufferAddress slot w := by
  unfold bufferAddress maxPacketSize at *
  omega

lemma place_slot {slot slot' : SlotId} {w w' : ℕ} (hw : w < windowSize) (hw' : w' < windowSize)
    (h : bufferAddress slot w = bufferAddress slot' w') : slot = slot' := by
  apply BitVec.eq_of_toNat_eq
  unfold bufferAddress maxPacketSize windowSize at *
  omega

variable {p : Packet}

lemma start_slot {req : RetransReq} {seq : Seqnum} (h : p.address = startAddr req seq) :
    p.slot = req.slotid :=
  place_slot (window_idx_lt _) (Nat.mod_lt _ (by decide)) h

end

section

inductive Op where
  | write (p : Packet)
  | read (cmd : DmCmd)

def Op.cmd : Op → Cmd
  | .write p => .write ⟨p.route.length.toNat,p.address⟩
  | .read cmd => .read cmd

def writes (ops : List Op) : List Packet :=
  ops.filterMap (fun op => match op with | .write p => some p | .read _ => none)

def reads (ops : List Op) : List DmCmd :=
  ops.filterMap (fun op => match op with | .write _ => none | .read cmd => some cmd)

@[simp] lemma writes_cons_write (p : Packet) (ops : List Op) :
    writes (.write p::ops) = p::writes ops := rfl

@[simp] lemma writes_cons_read (cmd : DmCmd) (ops : List Op) :
    writes (.read cmd::ops) = writes ops := rfl

@[simp] lemma reads_cons_write (p : Packet) (ops : List Op) :
    reads (.write p::ops) = reads ops := rfl

@[simp] lemma reads_cons_read (cmd : DmCmd) (ops : List Op) :
    reads (.read cmd::ops) = cmd::reads ops := rfl

variable (ops : List Op)

@[simp] lemma writes_append (more : List Op) :
    writes (ops++more) = writes ops++writes more := List.filterMap_append

@[simp] lemma reads_append (more : List Op) :
    reads (ops++more) = reads ops++reads more := List.filterMap_append

@[simp] lemma writes_nil : writes [] = [] := rfl

@[simp] lemma reads_nil : reads [] = [] := rfl

def latest : (ℕ → Option Packet) → List Op → ℕ → Option Packet
  | stored, [], a => stored a
  | stored, .write p::ops, a => latest (update stored p.address (some p)) ops a
  | stored, .read _::ops, a => latest stored ops a

variable {stored : ℕ → Option Packet}

lemma latest_read (cmd : DmCmd) (a : ℕ) :
    latest stored (ops++[.read cmd]) a = latest stored ops a := by
  induction ops generalizing stored with
  | nil => rfl
  | cons op ops ih => cases op <;> exact ih

lemma latest_write (p : Packet) (a : ℕ) :
    latest stored (ops++[.write p]) a = if p.address = a then some p else latest stored ops a := by
  induction ops generalizing stored with
  | nil =>
    simp only [List.nil_append,latest,update_apply]
    simp only [eq_comm]
  | cons op ops ih => cases op <;> exact ih

lemma latest_untouched (a : ℕ) (h : ∀ p ∈ writes ops, p.address ≠ a) :
    latest stored ops a = stored a := by
  induction ops generalizing stored with
  | nil => rfl
  | cons op ops ih =>
    cases op with
    | write p =>
      rw [latest,ih (fun q hq => h q (by simp [hq]))]
      exact update_of_ne (h p (by simp)).symm _ _
    | read cmd => exact ih h

lemma latest_kept (a : ℕ) (h : stored a ≠ none) : latest stored ops a ≠ none := by
  induction ops generalizing stored with
  | nil => exact h
  | cons op ops ih =>
    cases op with
    | write p =>
      apply ih
      rw [update_apply]
      split <;> simp [h]
    | read cmd => exact ih h

lemma latest_written (p : Packet) (h : p ∈ writes ops) : latest stored ops p.address ≠ none := by
  induction ops generalizing stored with
  | nil => cases h
  | cons op ops ih =>
    cases op with
    | write q =>
      rcases List.mem_cons.mp h with rfl | h
      · exact latest_kept ops _ (by simp)
      · exact ih h
    | read cmd => exact ih h

end

section

def writeBeats (p : Packet) : List NetAxis64 := lengthBeat p.route.length::p.beats

def Phase (m : System) (cur : Option Packet) (unread unwritten : List NetAxis64) : Prop :=
  match m.buf.recv with
  | .recvInfo => cur = none ∧ unread = [] ∧ unwritten = []
  | .writeHeader packet => ∃ p, cur = some p ∧ packet = p.header ∧ unread = p.rest ∧
      unwritten = p.beats ∧ m.taking = some ⟨p.route,p.header,[]⟩
  | .recvPayload => ∃ p done, cur = some p ∧ p.rest = done++unread ∧ unread ≠ [] ∧
      unwritten = unread ∧ m.taking = some ⟨p.route,p.header,done⟩

structure Receiving (m : System) (ops : List Op) (waiting : List Packet) (cur : Option Packet)
    (unread unwritten : List NetAxis64) : Prop where
  formed : ∀ p ∈ waiting, WellFormed p
  phase : Phase m cur unread unwritten
  routes : m.txBuffRouteInfo = waiting.map Packet.route
  payload : m.txBuffPayload = unread++waiting.flatMap Packet.beats
  queued : ∃ done, writes ops = done++cur.toList ∧ ∀ p ∈ done, p ∈ m.handed
  data : m.wrData++unwritten = (writes ops).flatMap writeBeats

structure Storing (m : System) (stored : ℕ → Option Packet) (ops : List Op) : Prop where
  cmds : m.cmds = ops.map Op.cmd
  formed : ∀ p ∈ writes ops, WellFormed p
  holds : ∀ a p, stored a = some p → p.address = a ∧ p ∈ m.handed ∧ WellFormed p ∧
    load m.mem a p.route.length.toNat = leBytes 8 p.route.length.toNat++p.bytes
  kept : ∀ p ∈ m.handed, latest stored ops p.address ≠ none

def OneRead (ops : List Op) (cmd : DmCmd) (before after : List Op) : Prop :=
  ops = before++.read cmd::after ∧ reads before = [] ∧ reads after = []

def Apart (ops : List Op) (a : ℕ) : Prop := ∀ p ∈ writes ops, p.address ≠ a

def LengthRead (m : System) (stored : ℕ → Option Packet) (ops : List Op) (a : ℕ) : Prop :=
  ∃ p, latest stored ops a = some p ∧
    ((∃ before after, OneRead ops ⟨8,a⟩ before after ∧ Apart after a ∧ m.rdData = []) ∨
      (reads ops = [] ∧ Apart ops a ∧ m.rdData = [⟨leBytes 8 p.route.length.toNat,true⟩]))

def ContentRead (m : System) (stored : ℕ → Option Packet) (ops : List Op) (slot : SlotId)
    (a : ℕ) : Prop :=
  ∃ p, p.slot = slot ∧ p ∈ m.handed ∧ p.bytes ≠ [] ∧
    ((∃ before after, OneRead ops ⟨p.route.length.toNat-8,a+8⟩ before after ∧ Apart before a ∧
      stored a = some p ∧ m.rdData = [] ∧ m.sending = some ⟨slot,p.route.length,[]⟩) ∨
    (reads ops = [] ∧ m.rdData ≠ [] ∧ ∃ done, done++m.rdData = beatsOf p.bytes ∧
      m.sending = some ⟨slot,p.route.length,bytesOf done⟩))

def Sending (m : System) (stored : ℕ → Option Packet) (ops : List Op) : Prop :=
  match m.buf.retrans with
  | .recvReq => reads ops = [] ∧ m.rdData = []
  | .readLen _ _ => reads ops = [] ∧ m.rdData = []
  | .retransHeader req seq => LengthRead m stored ops (startAddr req seq)
  | .retransPayload req seq => ContentRead m stored ops req.slotid (startAddr req seq)

structure Inv (m : System) : Prop where
  faithful : ∀ c ∈ m.emitted, Faithful m.handed c
  system : ∃ stored ops, Storing m stored ops ∧ Sending m stored ops ∧
    ∃ waiting cur unread unwritten, Receiving m ops waiting cur unread unwritten

lemma inv_boot (mem : ℕ → Byte) : Inv (boot mem) := by
  refine ⟨by simp [boot],fun _ => none,[],⟨rfl,by simp,by simp,by simp [boot]⟩,⟨rfl,rfl⟩,
    [],none,[],[],?_⟩
  exact ⟨by simp,⟨rfl,rfl,rfl⟩,rfl,rfl,⟨[],rfl,by simp⟩,rfl⟩

lemma inv_hand (m : System) (p : Packet) (hp : WellFormed p) (h : Inv m) : Inv (hand m p) := by
  obtain ⟨hf,stored,ops,hstore,hsend,waiting,cur,unread,unwritten,hrecv⟩ := h
  refine ⟨hf,stored,ops,⟨hstore.cmds,hstore.formed,hstore.holds,hstore.kept⟩,hsend,
    waiting++[p],cur,unread,unwritten,?_⟩
  refine ⟨?_,hrecv.phase,?_,?_,hrecv.queued,hrecv.data⟩
  · intro q hq
    rcases List.mem_append.mp hq with hq | hq
    · exact hrecv.formed q hq
    · rw [List.mem_singleton.mp hq]
      exact hp
  · simp [hand,hrecv.routes]
  · simp [hand,hrecv.payload]

/-! The data mover. -/

variable {ops : List Op}

lemma one_read_cons {cmd c : DmCmd} {before after : List Op}
    (h : OneRead (.read cmd::ops) c before after) : before = [] ∧ c = cmd ∧ after = ops := by
  obtain ⟨hops,hbefore,-⟩ := h
  cases before with
  | nil =>
    simp only [List.nil_append,List.cons.injEq,Op.read.injEq] at hops
    exact ⟨rfl,hops.1.symm,hops.2.symm⟩
  | cons op before =>
    obtain ⟨rfl,-⟩ := List.cons.inj hops
    cases hbefore

variable {p : Packet}

lemma one_read_write {c : DmCmd} {before after : List Op}
    (h : OneRead (.write p::ops) c before after) :
    ∃ rest, before = .write p::rest ∧ OneRead ops c rest after := by
  obtain ⟨hops,hbefore,hafter⟩ := h
  cases before with
  | nil => cases hops
  | cons op before =>
    simp only [List.cons_append,List.cons.injEq] at hops
    obtain ⟨rfl,hops⟩ := hops
    exact ⟨before,rfl,hops,hbefore,hafter⟩

lemma write_beats_ended (h : WellFormed p) : ended (writeBeats p) = true :=
  (ended_cons _ _ (by simp [Packet.beats])).mpr ⟨rfl,h.2.1⟩

lemma write_bytes (p : Packet) :
    bytesOf (writeBeats p) = leBytes 8 p.route.length.toNat++p.bytes := by
  simp [bytesOf,writeBeats,lengthBeat,Packet.bytes]

lemma load_parts {m : System} {a : ℕ} (h : WellFormed p)
    (hload : load m.mem a p.route.length.toNat = leBytes 8 p.route.length.toNat++p.bytes) :
    load m.mem a 8 = leBytes 8 p.route.length.toNat ∧
      load m.mem (a+8) (p.route.length.toNat-8) = p.bytes := by
  have hlen := h.2.2.2.1
  rw [show p.route.length.toNat = 8+(p.route.length.toNat-8) by omega,load_add] at hload
  rw [show 8+(p.route.length.toNat-8) = p.route.length.toNat by omega] at hload
  exact List.append_inj hload (by rw [length_load,length_le_bytes])

variable {cur : Option Packet} {unread unwritten : List NetAxis64}

lemma cur_unwritten {m : System} (h : Phase m cur unread unwritten) (hw : unwritten = []) :
    cur = none := by
  unfold Phase at h
  cases hst : m.buf.recv with
  | recvInfo =>
    rw [hst] at h
    exact h.1
  | writeHeader packet =>
    rw [hst] at h
    obtain ⟨p,-,-,-,hun,-⟩ := h
    rw [hw] at hun
    cases hun
  | recvPayload =>
    rw [hst] at h
    obtain ⟨p,done,-,-,hne,hun,-⟩ := h
    exact absurd (hun.symm.trans hw) hne

lemma written_handed {m : System} {waiting : List Packet}
    (h : Receiving m (.write p::ops) waiting cur unread unwritten) {rest : List NetAxis64}
    (hrest : rest++unwritten = (writes ops).flatMap writeBeats) :
    p ∈ m.handed ∧ ∃ done, writes ops = done++cur.toList ∧ ∀ q ∈ done, q ∈ m.handed := by
  obtain ⟨done,hw,hdone⟩ := h.queued
  rw [writes_cons_write] at hw
  cases done with
  | nil =>
    -- the packet is the one the receive machine works on, so something of it is not written
    cases cur with
    | none => cases hw
    | some q =>
      simp only [Option.toList,List.nil_append,List.cons.injEq] at hw
      rw [hw.2,List.flatMap_nil,List.append_eq_nil_iff] at hrest
      cases cur_unwritten h.phase hrest.2
  | cons q done =>
    simp only [List.cons_append,List.cons.injEq] at hw
    obtain ⟨rfl,hw⟩ := hw
    exact ⟨hdone p (by simp),done,hw,fun r hr => hdone r (by simp [hr])⟩

lemma mover_read {m : System} {cmd : DmCmd} {stored : ℕ → Option Packet}
    (hstore : Storing m stored (.read cmd::ops)) (hsend : Sending m stored (.read cmd::ops)) :
    Sending (doRead m cmd (ops.map Op.cmd)) stored ops := by
  unfold Sending at hsend ⊢
  rw [show (doRead m cmd (ops.map Op.cmd)).buf = m.buf from rfl]
  cases hst : m.buf.retrans with
  | recvReq | readLen req seq =>
    rw [hst] at hsend
    cases hsend.1
  | retransHeader req seq =>
    rw [hst] at hsend
    obtain ⟨p,hlast,⟨before,after,hone,hapart,hdata⟩ | ⟨hreads,-⟩⟩ := hsend
    · obtain ⟨rfl,rfl,rfl⟩ := one_read_cons hone
      have hplace : stored (startAddr req seq) = some p :=
        (latest_untouched after _ hapart).symm.trans hlast
      obtain ⟨-,-,hwf,hload⟩ := hstore.holds _ p hplace
      refine ⟨p,hlast,.inr ⟨hone.2.2,hapart,?_⟩⟩
      rw [doRead,hdata,List.nil_append,(load_parts hwf hload).1,word_beat]
    · cases hreads
  | retransPayload req seq =>
    rw [hst] at hsend
    obtain ⟨p,hslot,hhand,hne,⟨before,after,hone,hapart,hplace,hdata,hsending⟩ | ⟨hreads,-⟩⟩ :=
      hsend
    · obtain ⟨rfl,rfl,rfl⟩ := one_read_cons hone
      obtain ⟨-,-,hwf,hload⟩ := hstore.holds _ p hplace
      refine ⟨p,hslot,hhand,hne,.inr ⟨hone.2.2,?_,[],?_,hsending⟩⟩
      · rw [doRead,hdata,List.nil_append,(load_parts hwf hload).2]
        exact beats_of_ne_nil hne
      · rw [doRead,hdata,List.nil_append,(load_parts hwf hload).2]
        rfl
    · cases hreads

lemma mover_write {m m' : System} {stored : ℕ → Option Packet} (hbuf : m'.buf = m.buf)
    (hrd : m'.rdData = m.rdData) (hhand : m'.handed = m.handed) (hsnd : m'.sending = m.sending)
    (hsend : Sending m stored (.write p::ops)) :
    Sending m' (update stored p.address (some p)) ops := by
  unfold Sending at hsend ⊢
  rw [hbuf]
  cases hst : m.buf.retrans with
  | recvReq | readLen req seq =>
    rw [hst] at hsend
    exact ⟨hsend.1,hrd.trans hsend.2⟩
  | retransHeader req seq =>
    rw [hst] at hsend
    obtain ⟨q,hlast,⟨before,after,hone,hapart,hdata⟩ | ⟨hreads,hapart,hdata⟩⟩ := hsend
    · obtain ⟨rest,rfl,hone'⟩ := one_read_write hone
      exact ⟨q,hlast,.inl ⟨rest,after,hone',hapart,hrd.trans hdata⟩⟩
    · exact ⟨q,hlast,.inr ⟨hreads,fun r hr => hapart r (by simp [hr]),hrd.trans hdata⟩⟩
  | retransPayload req seq =>
    rw [hst] at hsend
    obtain ⟨q,hslot,hq,hne,⟨before,after,hone,hapart,hplace,hdata,hsending⟩ |
      ⟨hreads,hdata,done,hdone,hsending⟩⟩ := hsend
    · obtain ⟨rest,rfl,hone'⟩ := one_read_write hone
      refine ⟨q,hslot,hhand ▸ hq,hne,.inl ⟨rest,after,hone',fun r hr => hapart r (by simp [hr]),?_,
        hrd.trans hdata,hsnd.trans hsending⟩⟩
      rw [update_of_ne (hapart p (by simp)).symm]
      exact hplace
    · exact ⟨q,hslot,hhand ▸ hq,hne,.inr ⟨hreads,hrd ▸ hdata,done,hrd ▸ hdone,hsnd.trans hsending⟩⟩

lemma store_holds {m : System} {q : Packet} {a : ℕ} (hp : WellFormed p) (hq : WellFormed q)
    (haddr : q.address = a) (hne : a ≠ p.address)
    (hload : load m.mem a q.route.length.toNat = leBytes 8 q.route.length.toNat++q.bytes) :
    load (store m.mem p.address (leBytes 8 p.route.length.toNat++p.bytes)) a
      q.route.length.toNat = leBytes 8 q.route.length.toNat++q.bytes := by
  have hplen : (leBytes 8 p.route.length.toNat++p.bytes).length = p.route.length.toNat := by
    rw [List.length_append,length_le_bytes]
    have := hp.2.2.2.1
    omega
  have hp5 := hp.2.2.2.2
  have hq5 := hq.2.2.2.2
  have hapart := place_apart p.slot q.slot (buffWindowIdx p.header) (buffWindowIdx q.header)
    (fun h => hne (haddr.symm.trans h.symm))
  rw [load_store_apart,hload]
  rw [hplen,← haddr]
  unfold Packet.address
  omega

lemma inv_mover (m : System) (h : Inv m) : Inv (mover m) := by
  obtain ⟨hf,stored,ops,hstore,hsend,waiting,cur,unread,unwritten,hrecv⟩ := h
  have hcmds := hstore.cmds
  cases ops with
  | nil =>
    have hm : mover m = m := by
      unfold mover
      rw [show m.cmds = [] from hcmds]
    rw [hm]
    exact ⟨hf,stored,[],hstore,hsend,waiting,cur,unread,unwritten,hrecv⟩
  | cons op ops =>
    cases op with
    | read cmd =>
      have hm : mover m = doRead m cmd (ops.map Op.cmd) := by
        unfold mover
        rw [show m.cmds = .read cmd::ops.map Op.cmd from hcmds]
      rw [hm]
      refine ⟨hf,stored,ops,⟨rfl,hstore.formed,hstore.holds,hstore.kept⟩,
        mover_read hstore hsend,waiting,cur,unread,unwritten,?_⟩
      exact ⟨hrecv.formed,hrecv.phase,hrecv.routes,hrecv.payload,hrecv.queued,hrecv.data⟩
    | write p =>
      cases htake : takePacket m.wrData with
      | none =>
        have hm : mover m = m := by
          unfold mover
          rw [show m.cmds = .write ⟨p.route.length.toNat,p.address⟩::ops.map Op.cmd from hcmds]
          simp only [htake]
        rw [hm]
        exact ⟨hf,stored,.write p::ops,hstore,hsend,waiting,cur,unread,unwritten,hrecv⟩
      | some x =>
        obtain ⟨beats,rest⟩ := x
        have hwf := hstore.formed p (by simp)
        obtain ⟨rfl,hrest⟩ := take_packet_eq (writeBeats p) m.wrData unwritten _
          (write_beats_ended hwf) hrecv.data htake
        obtain ⟨hp,hqueued⟩ := written_handed hrecv hrest
        have hlen : (leBytes 8 p.route.length.toNat++p.bytes).length = p.route.length.toNat := by
          rw [List.length_append,length_le_bytes]
          have := hwf.2.2.2.1
          omega
        have hm : mover m = doWrite m p.address (leBytes 8 p.route.length.toNat++p.bytes)
            (ops.map Op.cmd) rest := by
          unfold mover
          rw [show m.cmds = .write ⟨p.route.length.toNat,p.address⟩::ops.map Op.cmd from hcmds]
          simp only [htake,write_bytes]
          rw [List.take_of_length_le hlen.le]
        rw [hm]
        refine ⟨hf,update stored p.address (some p),ops,?_,
          mover_write rfl rfl rfl rfl hsend,waiting,cur,unread,unwritten,?_⟩
        · refine ⟨rfl,fun q hq => hstore.formed q (by simp [hq]),?_,hstore.kept⟩
          intro a q hq
          by_cases ha : a = p.address
          · subst ha
            rw [update_self] at hq
            cases hq
            refine ⟨rfl,hp,hwf,?_⟩
            have hback := load_store m.mem p.address (leBytes 8 p.route.length.toNat++p.bytes)
            rwa [hlen] at hback
          · rw [update_of_ne ha] at hq
            obtain ⟨haddr,hin,hqf,hload⟩ := hstore.holds a q hq
            exact ⟨haddr,hin,hqf,store_holds hwf hqf haddr ha hload⟩
        · exact ⟨hrecv.formed,hrecv.phase,hrecv.routes,hrecv.payload,hqueued,hrest⟩

/-! The receive machine. -/

lemma sending_write {m m' : System} {stored : ℕ → Option Packet}
    (hre : m'.buf.retrans = m.buf.retrans) (hrd : m'.rdData = m.rdData)
    (hhand : m'.handed = m.handed) (hsnd : m'.sending = m.sending)
    (hfree : ∀ req seq, m.buf.retrans = .retransHeader req seq → p.address ≠ startAddr req seq)
    (hsend : Sending m stored ops) : Sending m' stored (ops++[.write p]) := by
  unfold Sending at hsend ⊢
  rw [hre]
  cases hst : m.buf.retrans with
  | recvReq | readLen req seq =>
    rw [hst] at hsend
    exact ⟨by simpa using hsend.1,hrd.trans hsend.2⟩
  | retransHeader req seq =>
    rw [hst] at hsend
    have hne := hfree req seq hst
    have happ : ∀ l : List Op, Apart l (startAddr req seq) →
        Apart (l++[.write p]) (startAddr req seq) := by
      intro l hl q hq
      rw [writes_append,List.mem_append] at hq
      rcases hq with hq | hq
      · exact hl q hq
      · rw [show q = p by simpa using hq]
        exact hne
    obtain ⟨q,hlast,hcase⟩ := hsend
    refine ⟨q,by rw [latest_write,if_neg hne,hlast],?_⟩
    rcases hcase with ⟨before,after,⟨hops,hb,ha⟩,hapart,hdata⟩ | ⟨hreads,hapart,hdata⟩
    · left
      exact ⟨before,after++[.write p],⟨by simp [hops],hb,by simp [ha]⟩,happ after hapart,
        hrd.trans hdata⟩
    · exact .inr ⟨by simpa using hreads,happ ops hapart,hrd.trans hdata⟩
  | retransPayload req seq =>
    rw [hst] at hsend
    obtain ⟨q,hslot,hq,hne,hcase⟩ := hsend
    refine ⟨q,hslot,hhand ▸ hq,hne,?_⟩
    rcases hcase with ⟨before,after,⟨hops,hb,ha⟩,hapart,hplace,hdata,hsending⟩ |
      ⟨hreads,hdata,done,hdone,hsending⟩
    · left
      exact ⟨before,after++[.write p],⟨by simp [hops],hb,by simp [ha]⟩,hapart,hplace,
        hrd.trans hdata,hsnd.trans hsending⟩
    · exact .inr ⟨by simpa using hreads,hrd ▸ hdata,done,hrd ▸ hdone,hsnd.trans hsending⟩

lemma sending_same {m m' : System} {stored : ℕ → Option Packet}
    (hre : m'.buf.retrans = m.buf.retrans) (hrd : m'.rdData = m.rdData)
    (hhand : ∀ p ∈ m.handed, p ∈ m'.handed) (hsnd : m'.sending = m.sending)
    (hsend : Sending m stored ops) : Sending m' stored ops := by
  unfold Sending at hsend ⊢
  rw [hre]
  cases hst : m.buf.retrans with
  | recvReq | readLen req seq =>
    rw [hst] at hsend
    exact ⟨hsend.1,hrd.trans hsend.2⟩
  | retransHeader req seq =>
    rw [hst] at hsend
    unfold LengthRead
    rw [hrd]
    exact hsend
  | retransPayload req seq =>
    rw [hst] at hsend
    obtain ⟨q,hslot,hq,hcase⟩ := hsend
    refine ⟨q,hslot,hhand q hq,?_⟩
    rw [hrd,hsnd]
    exact hcase

section

variable (m : System) (seePayload seeRoute : Bool) (h : Inv m)
include m seePayload seeRoute h

lemma inv_begin (hfree : Untouched m seePayload seeRoute) {packet : NetAxis64} {info : RouteInfo}
    (hst : m.buf.recv = .recvInfo) (hpay : see seePayload m.txBuffPayload = some packet)
    (hroute : see seeRoute m.txBuffRouteInfo = some info) :
    Inv (callRecv m seePayload seeRoute) := by
  obtain ⟨hf,stored,ops,hstore,hsend,waiting,cur,unread,unwritten,hrecv⟩ := h
  have hphase := hrecv.phase
  unfold Phase at hphase
  rw [hst] at hphase
  obtain ⟨rfl,rfl,rfl⟩ := hphase
  obtain ⟨routes,hroutes⟩ := see_cons hroute
  obtain ⟨beats,hbeats⟩ := see_cons hpay
  -- the heads of the two streams belong to one packet
  obtain ⟨p,rest,rfl,rfl,hrest⟩ := List.map_eq_cons_iff.mp (hrecv.routes.symm.trans hroutes)
  have hpayload := hrecv.payload.symm.trans hbeats
  simp only [List.nil_append,List.flatMap_cons,Packet.beats,List.cons_append,
    List.cons.injEq] at hpayload
  obtain ⟨rfl,hpayload⟩ := hpayload
  have hwf := hrecv.formed p (by simp)
  let destIp := update m.buf.destIp (buffSlotId p.header) p.route.destIp
  have hm : callRecv m seePayload seeRoute =
      { m with buf := ⟨.writeHeader p.header,m.buf.retrans,destIp⟩,
               cmds := m.cmds++[.write (writeCmd p.header p.route)],
               wrData := m.wrData++[lengthBeat p.route.length], txBuffPayload := beats,
               txBuffRouteInfo := routes, taking := some ⟨p.route,p.header,[]⟩ } := by
    unfold callRecv
    simp only [hpay,hroute,hst,recvStep]
    rw [hroutes,hbeats]
    rfl
  rw [hm]
  refine ⟨hf,stored,ops++[.write p],⟨?_,?_,hstore.holds,?_⟩,?_,rest,some p,p.rest,p.beats,?_⟩
  · simp [hstore.cmds,Op.cmd,writeCmd,Packet.address,Packet.slot]
  · intro q hq
    rw [writes_append,List.mem_append] at hq
    rcases hq with hq | hq
    · exact hstore.formed q hq
    · rw [show q = p by simpa using hq]
      exact hwf
  · intro q hq
    rw [latest_write]
    split
    · simp
    · exact hstore.kept q hq
  · apply sending_write rfl rfl rfl rfl _ hsend
    intro req seq hre haddr
    apply hfree (startAddr req seq) (by rw [openPlace,hre]; rfl)
    rw [takenPlace,hst,hpay,hroute,← haddr]
    rfl
  · obtain ⟨done,hw,hdone⟩ := hrecv.queued
    refine ⟨fun q hq => hrecv.formed q (by simp [hq]),⟨p,rfl,rfl,rfl,rfl,rfl⟩,hrest.symm,
      hpayload.symm,⟨done,by simp [hw],hdone⟩,?_⟩
    have hdata := hrecv.data
    simp only [List.append_nil] at hdata
    simp [hdata,writeBeats]

lemma inv_header {packet : NetAxis64} (hst : m.buf.recv = .writeHeader packet) :
    Inv (callRecv m seePayload seeRoute) := by
  obtain ⟨hf,stored,ops,hstore,hsend,waiting,cur,unread,unwritten,hrecv⟩ := h
  have hphase := hrecv.phase
  unfold Phase at hphase
  rw [hst] at hphase
  obtain ⟨p,rfl,rfl,rfl,rfl,htaking⟩ := hphase
  have hm : callRecv m seePayload seeRoute =
      { m with buf := { m.buf with recv := .recvPayload }, wrData := m.wrData++[p.header] } := by
    unfold callRecv
    simp only [hst,recvStep,Option.toList,List.map_nil,List.append_nil]
  have hwf : WellFormed p := by
    obtain ⟨done,hw,-⟩ := hrecv.queued
    exact hstore.formed p (by simp [hw])
  rw [hm]
  refine ⟨hf,stored,ops,⟨hstore.cmds,hstore.formed,hstore.holds,hstore.kept⟩,
    sending_same rfl rfl (fun _ hq => hq) rfl hsend,waiting,some p,p.rest,p.rest,?_⟩
  refine ⟨hrecv.formed,⟨p,[],rfl,rfl,hwf.1,rfl,htaking⟩,hrecv.routes,hrecv.payload,hrecv.queued,?_⟩
  rw [← hrecv.data]
  simp [Packet.beats]

lemma inv_payload {packet : NetAxis64} (hst : m.buf.recv = .recvPayload)
    (hpay : see seePayload m.txBuffPayload = some packet) :
    Inv (callRecv m seePayload seeRoute) := by
  obtain ⟨hf,stored,ops,hstore,hsend,waiting,cur,unread,unwritten,hrecv⟩ := h
  have hphase := hrecv.phase
  unfold Phase at hphase
  rw [hst] at hphase
  obtain ⟨p,done,rfl,hrest,hne,rfl,htaking⟩ := hphase
  obtain ⟨beats,hbeats⟩ := see_cons hpay
  obtain ⟨beat,more,rfl⟩ := List.exists_cons_of_ne_nil hne
  have hpayload := hrecv.payload.symm.trans hbeats
  simp only [List.cons_append,List.cons.injEq] at hpayload
  obtain ⟨rfl,hpayload⟩ := hpayload
  obtain ⟨ws,hw,hws⟩ := hrecv.queued
  have hwf : WellFormed p := hstore.formed p (by simp [hw])
  have hlast := ended_split (p.header::done) more beat (by
    have := hwf.2.1
    rwa [Packet.beats,hrest] at this)
  have hdata : (m.wrData++[beat])++more = (writes ops).flatMap writeBeats := by
    rw [← hrecv.data]
    simp
  by_cases hl : beat.last = true
  · obtain rfl := hlast.mp hl
    have hm : callRecv m seePayload seeRoute =
        { m with buf := { m.buf with recv := .recvInfo }, wrData := m.wrData++[beat],
                 txBuffPayload := beats, taking := none, handed := m.handed++[p] } := by
      unfold callRecv
      simp only [hpay,hst,recvStep,hl,htaking]
      simp [← hrest,hbeats]
    rw [hm]
    refine ⟨?_,stored,ops,⟨hstore.cmds,hstore.formed,?_,?_⟩,
      sending_same (m := m) rfl rfl (fun _ hq => by simp [hq]) rfl hsend,waiting,none,[],[],?_⟩
    · intro c hc
      obtain ⟨q,hq,hcopy⟩ := hf c hc
      exact ⟨q,by simp [hq],hcopy⟩
    · intro a q hq
      obtain ⟨h1,h2,h3,h4⟩ := hstore.holds a q hq
      exact ⟨h1,by simp [h2],h3,h4⟩
    · intro q hq
      rcases List.mem_append.mp hq with hq | hq
      · exact hstore.kept q hq
      · rw [List.mem_singleton.mp hq]
        exact latest_written ops p (by simp [hw])
    · refine ⟨hrecv.formed,⟨rfl,rfl,rfl⟩,hrecv.routes,hpayload.symm,⟨ws++[p],by simp [hw],?_⟩,hdata⟩
      intro q hq
      rcases List.mem_append.mp hq with hq | hq
      · simp [hws q hq]
      · simp [List.mem_singleton.mp hq]
  · have hm : callRecv m seePayload seeRoute =
        { m with wrData := m.wrData++[beat], txBuffPayload := beats,
                 taking := some ⟨p.route,p.header,done++[beat]⟩ } := by
      unfold callRecv
      simp only [hpay,hst,recvStep,hl,htaking]
      simp [hbeats]
    have hmore : more ≠ [] := fun h => hl (hlast.mpr h)
    rw [hm]
    refine ⟨hf,stored,ops,⟨hstore.cmds,hstore.formed,hstore.holds,hstore.kept⟩,
      sending_same rfl rfl (fun _ hq => hq) rfl hsend,waiting,some p,more,more,?_⟩
    refine ⟨hrecv.formed,?_,hrecv.routes,hpayload.symm,⟨ws,hw,hws⟩,hdata⟩
    unfold Phase
    rw [show ({ m with wrData := m.wrData++[beat], txBuffPayload := beats,
                       taking := some ⟨p.route,p.header,done++[beat]⟩ } : System).buf.recv =
      .recvPayload from hst]
    exact ⟨p,done++[beat],rfl,by simp [hrest],hmore,rfl,rfl⟩

lemma inv_recv (hfree : Untouched m seePayload seeRoute) :
    Inv (callRecv m seePayload seeRoute) := by
  cases hst : m.buf.recv with
  | recvInfo =>
    cases hpay : see seePayload m.txBuffPayload with
    | none =>
      have hm : callRecv m seePayload seeRoute = m := by
        unfold callRecv
        simp only [hpay,hst,recvStep,Option.toList,List.map_nil,List.append_nil]
      rwa [hm]
    | some packet =>
      cases hroute : see seeRoute m.txBuffRouteInfo with
      | none =>
        have hm : callRecv m seePayload seeRoute = m := by
          unfold callRecv
          simp only [hpay,hroute,hst,recvStep,Option.toList,List.map_nil,List.append_nil]
        rwa [hm]
      | some info => exact inv_begin m seePayload seeRoute h hfree hst hpay hroute
  | writeHeader packet => exact inv_header m seePayload seeRoute h hst
  | recvPayload =>
    cases hpay : see seePayload m.txBuffPayload with
    | none =>
      have hm : callRecv m seePayload seeRoute = m := by
        unfold callRecv
        simp only [hpay,hst,recvStep,Option.toList,List.map_nil,List.append_nil]
      rwa [hm]
    | some packet => exact inv_payload m seePayload seeRoute h hst hpay

end

/-! The retransmit machine. -/

lemma receiving_read {m m' : System} {cmd : DmCmd} {waiting : List Packet}
    (hrecv : m'.buf.recv = m.buf.recv) (htaking : m'.taking = m.taking)
    (hroutes : m'.txBuffRouteInfo = m.txBuffRouteInfo)
    (hpayload : m'.txBuffPayload = m.txBuffPayload) (hhanded : m'.handed = m.handed)
    (hdata : m'.wrData = m.wrData) (h : Receiving m ops waiting cur unread unwritten) :
    Receiving m' (ops++[.read cmd]) waiting cur unread unwritten := by
  have hw : writes (ops++[.read cmd]) = writes ops := by simp
  obtain ⟨done,hdone,hin⟩ := h.queued
  refine ⟨h.formed,?_,hroutes.trans h.routes,hpayload.trans h.payload,
    ⟨done,hw.trans hdone,hhanded ▸ hin⟩,?_⟩
  · have hphase := h.phase
    unfold Phase at hphase ⊢
    rwa [hrecv,htaking]
  · rw [hw,hdata]
    exact h.data

lemma storing_read {m m' : System} {stored : ℕ → Option Packet} {cmd : DmCmd}
    (hcmds : m'.cmds = m.cmds++[.read cmd]) (hmem : m'.mem = m.mem) (hhanded : m'.handed = m.handed)
    (h : Storing m stored ops) : Storing m' stored (ops++[.read cmd]) := by
  refine ⟨by simp [hcmds,h.cmds,Op.cmd],by simpa using h.formed,?_,?_⟩
  · rw [hmem,hhanded]
    exact h.holds
  · rw [hhanded]
    intro p hp
    rw [latest_read]
    exact h.kept p hp

section

variable (m : System) (req : Option RetransReq) (seeData : Bool) (h : Inv m)
include m req seeData h

lemma inv_request (hst : m.buf.retrans = .recvReq) : Inv (callRetrans m req seeData) := by
  obtain ⟨hf,stored,ops,hstore,hsend,waiting,cur,unread,unwritten,hrecv⟩ := h
  unfold Sending at hsend
  rw [hst] at hsend
  have hm : ∃ st, (st = .recvReq ∨ ∃ r seq, st = .readLen r seq) ∧
      callRetrans m req seeData = { m with buf := { m.buf with retrans := st } } := by
    unfold callRetrans
    simp only [executing,hst,retransStep]
    cases req with
    | none => exact ⟨.recvReq,.inl rfl,by simp [← hst]⟩
    | some r =>
      by_cases hbad : r.seqEnd < r.seqStart
      · exact ⟨.recvReq,.inl rfl,by simp [hbad,← hst]⟩
      · exact ⟨.readLen r r.seqStart,.inr ⟨_,_,rfl⟩,by simp [hbad]⟩
  obtain ⟨st,hcase,hm⟩ := hm
  rw [hm]
  refine ⟨hf,stored,ops,⟨hstore.cmds,hstore.formed,hstore.holds,hstore.kept⟩,?_,
    waiting,cur,unread,unwritten,?_⟩
  · rcases hcase with rfl | ⟨r,seq,rfl⟩ <;> exact hsend
  · exact ⟨hrecv.formed,hrecv.phase,hrecv.routes,hrecv.payload,hrecv.queued,hrecv.data⟩

variable {r : RetransReq} {seq : Seqnum}

lemma inv_read_len (hst : m.buf.retrans = .readLen r seq)
    (hbuffered : ∃ p ∈ m.handed, p.address = startAddr r seq) :
    Inv (callRetrans m req seeData) := by
  obtain ⟨hf,stored,ops,hstore,hsend,waiting,cur,unread,unwritten,hrecv⟩ := h
  unfold Sending at hsend
  rw [hst] at hsend
  obtain ⟨hreads,hdata⟩ := hsend
  have hsee : see seeData m.rdData = none := by
    rw [hdata,see]
    split <;> rfl
  have hm : callRetrans m req seeData =
      { m with buf := { m.buf with retrans := .retransHeader r seq },
               cmds := m.cmds++[.read ⟨8,startAddr r seq⟩] } := by
    unfold callRetrans
    simp only [hsee,executing,hst,retransStep,UnackedBuffer.retransHeader]
    rfl
  rw [hm]
  obtain ⟨p,hp,haddr⟩ := hbuffered
  have hkept := hstore.kept p hp
  rw [haddr] at hkept
  obtain ⟨q,hq⟩ := Option.ne_none_iff_exists'.mp hkept
  refine ⟨hf,stored,ops++[.read ⟨8,startAddr r seq⟩],?_,?_,waiting,cur,unread,unwritten,?_⟩
  · exact storing_read rfl rfl rfl hstore
  · refine ⟨q,(latest_read ops _ _).trans hq,.inl ⟨ops,[],⟨rfl,hreads,rfl⟩,?_,hdata⟩⟩
    intro _ hno
    cases hno
  · exact receiving_read (m := m) rfl rfl rfl rfl rfl rfl hrecv

lemma inv_retrans_header (hst : m.buf.retrans = .retransHeader r seq) {beat : NetAxis64}
    (hsee : see seeData m.rdData = some beat) : Inv (callRetrans m req seeData) := by
  obtain ⟨hf,stored,ops,hstore,hsend,waiting,cur,unread,unwritten,hrecv⟩ := h
  unfold Sending at hsend
  rw [hst] at hsend
  obtain ⟨beats,hbeats⟩ := see_cons hsee
  obtain ⟨p,hlast,⟨before,after,-,-,hdata⟩ | ⟨hreads,hapart,hdata⟩⟩ := hsend
  · rw [hbeats] at hdata
    cases hdata
  · rw [hbeats,List.cons.injEq] at hdata
    obtain ⟨rfl,rfl⟩ := hdata
    -- the length word read is the length of the packet that is still in the place
    have hplace : stored (startAddr r seq) = some p :=
      (latest_untouched ops _ hapart).symm.trans hlast
    obtain ⟨haddr,hin,hwf,-⟩ := hstore.holds _ p hplace
    have hcontent : contentCmd r seq ⟨leBytes 8 p.route.length.toNat,true⟩ =
        ⟨p.route.length.toNat-8,startAddr r seq+8⟩ := by
      have hlen := hwf.2.2.2.1
      have hlt := p.route.length.isLt
      rw [contentCmd,rd_length_beat,DmCmd.mk.injEq]
      exact ⟨by omega,rfl⟩
    have hm : callRetrans m req seeData =
        { m with buf := { m.buf with retrans := .retransPayload r seq },
                 cmds := m.cmds++[.read ⟨p.route.length.toNat-8,startAddr r seq+8⟩],
                 rdData := [], sending := some ⟨r.slotid,p.route.length,[]⟩ } := by
      unfold callRetrans
      simp only [hsee,executing,hst,retransStep,UnackedBuffer.retransHeader,hcontent]
      simp [retransUdpInfo,rd_length_beat,hbeats]
    rw [hm]
    refine ⟨hf,stored,ops++[.read ⟨p.route.length.toNat-8,startAddr r seq+8⟩],?_,?_,
      waiting,cur,unread,unwritten,?_⟩
    · exact storing_read rfl rfl rfl hstore
    · exact ⟨p,start_slot haddr,hin,hwf.2.2.1,.inl ⟨ops,[],⟨rfl,hreads,rfl⟩,hapart,hplace,rfl,rfl⟩⟩
    · exact receiving_read (m := m) rfl rfl rfl rfl rfl rfl hrecv

lemma inv_retrans_payload (hst : m.buf.retrans = .retransPayload r seq) {beat : NetAxis64}
    (hsee : see seeData m.rdData = some beat) : Inv (callRetrans m req seeData) := by
  obtain ⟨hf,stored,ops,hstore,hsend,waiting,cur,unread,unwritten,hrecv⟩ := h
  unfold Sending at hsend
  rw [hst] at hsend
  obtain ⟨beats,hbeats⟩ := see_cons hsee
  obtain ⟨p,hslot,hin,hne,⟨before,after,-,-,-,hdata,-⟩ | ⟨hreads,-,done,hdone,hsending⟩⟩ := hsend
  · rw [hbeats] at hdata
    cases hdata
  · rw [hbeats] at hdone
    have hlast := beats_of_split hdone
    have hbytes : bytesOf done++beat.bytes = bytesOf (done++[beat]) := by
      rw [bytes_of_append]
      simp [bytesOf]
    by_cases hl : beat.last = true
    · obtain rfl := hlast.mp hl
      have hm : ∃ st, (st = .recvReq ∨ ∃ r seq, st = .readLen r seq) ∧ callRetrans m req seeData =
            { m with buf := { m.buf with retrans := st }, rdData := [], sending := none,
                     emitted := m.emitted++[⟨r.slotid,p.route.length,p.bytes⟩] } := by
        unfold callRetrans
        simp only [hsee,executing,hst,retransStep,UnackedBuffer.retransPayload,hl,hsending]
        have hall : bytesOf done++beat.bytes = p.bytes := by
          rw [hbytes,hdone,bytes_of_beats]
        by_cases hend : r.seqEnd < seq+1
        · refine ⟨.recvReq,.inl rfl,?_⟩
          simp only [if_pos hend]
          simp [hall,hbeats]
        · refine ⟨.readLen r (seq+1),.inr ⟨_,_,rfl⟩,?_⟩
          simp only [if_neg hend]
          simp [hall,hbeats]
      obtain ⟨st,hcase,hm⟩ := hm
      rw [hm]
      refine ⟨?_,stored,ops,⟨hstore.cmds,hstore.formed,hstore.holds,hstore.kept⟩,?_,
        waiting,cur,unread,unwritten,?_⟩
      · intro c hc
        rcases List.mem_append.mp hc with hc | hc
        · exact hf c hc
        · rw [List.mem_singleton.mp hc]
          exact ⟨p,hin,hslot,rfl,rfl⟩
      · rcases hcase with rfl | ⟨r',seq',rfl⟩ <;> exact ⟨hreads,rfl⟩
      · exact ⟨hrecv.formed,hrecv.phase,hrecv.routes,hrecv.payload,hrecv.queued,hrecv.data⟩
    · have hm : callRetrans m req seeData =
          { m with rdData := beats,
                   sending := some ⟨r.slotid,p.route.length,bytesOf (done++[beat])⟩ } := by
        unfold callRetrans
        simp only [hsee,executing,hst,retransStep,UnackedBuffer.retransPayload,hl,hsending]
        simp [hbytes,hbeats]
      rw [hm]
      refine ⟨hf,stored,ops,⟨hstore.cmds,hstore.formed,hstore.holds,hstore.kept⟩,?_,
        waiting,cur,unread,unwritten,?_⟩
      · unfold Sending
        dsimp only
        rw [hst]
        refine ⟨p,hslot,hin,hne,.inr ⟨hreads,fun hb => hl (hlast.mpr hb),done++[beat],?_,rfl⟩⟩
        simpa using hdone
      · exact ⟨hrecv.formed,hrecv.phase,hrecv.routes,hrecv.payload,hrecv.queued,hrecv.data⟩

lemma inv_retrans (hbuffered : Buffered m) : Inv (callRetrans m req seeData) := by
  cases hst : m.buf.retrans with
  | recvReq => exact inv_request m req seeData h hst
  | readLen r seq =>
    exact inv_read_len m req seeData h hst
      (hbuffered _ (by rw [nextPlace,hst]; rfl))
  | retransHeader r seq =>
    cases hsee : see seeData m.rdData with
    | none =>
      have hm : callRetrans m req seeData = m := by
        unfold callRetrans
        simp only [hsee,executing,hst,retransStep,UnackedBuffer.retransHeader]
        simp [← hst]
      rwa [hm]
    | some beat => exact inv_retrans_header m req seeData h hst hsee
  | retransPayload r seq =>
    cases hsee : see seeData m.rdData with
    | none =>
      have hm : callRetrans m req seeData = m := by
        unfold callRetrans
        simp only [hsee,executing,hst,retransStep]
        simp
      rwa [hm]
    | some beat => exact inv_retrans_payload m req seeData h hst hsee

end

lemma recv_keeps (m : System) (seePayload seeRoute : Bool) :
    (callRecv m seePayload seeRoute).buf.retrans = m.buf.retrans ∧
      ∀ p ∈ m.handed, p ∈ (callRecv m seePayload seeRoute).handed := by
  unfold callRecv
  dsimp only
  split
  · exact ⟨recv_step_retrans _ _ _,fun _ hp => hp⟩
  · split_ifs
    · exact ⟨recv_step_retrans _ _ _,fun _ hp => List.mem_append_left _ hp⟩
    · exact ⟨recv_step_retrans _ _ _,fun _ hp => hp⟩
  · exact ⟨recv_step_retrans _ _ _,fun _ hp => hp⟩

lemma inv_step (m : System) (a : Action) (m' : System) (h : Inv m) (hok : Allowed m a)
    (hexec : exec m a = some m') : Inv m' := by
  cases a with
  | hand p =>
    cases hexec
    exact inv_hand m p hok h
  | call req seePayload seeRoute seeData =>
    cases hexec
    apply inv_retrans _ _ _ (inv_recv m seePayload seeRoute h hok.1)
    intro place hplace
    obtain ⟨hre,hkeep⟩ := recv_keeps m seePayload seeRoute
    rw [nextPlace,hre] at hplace
    obtain ⟨p,hp,haddr⟩ := hok.2 place hplace
    exact ⟨p,hkeep p hp,haddr⟩
  | mover =>
    cases hexec
    exact inv_mover m h

end

/-- A retransmitted packet was handed over for the slot, if its place is not written meanwhile. -/
theorem retransmissions_faithful (mem : ℕ → Byte) (as : List Action) (m : System)
    (hok : Guarded exec Allowed as (boot mem)) (hrun : run exec as (boot mem) = some m) :
    ∀ c ∈ m.emitted, Faithful m.handed c :=
  (run_invariant exec Allowed Inv inv_step as (boot mem) m (inv_boot mem) hok hrun).faithful

def packetFor (seqnum : Byte) (length : BitVec 16) (payload : List (List Byte)) : Packet :=
  ⟨⟨2,length⟩,⟨[3,seqnum,0,0,0,5,12,0],false⟩,
    payload.dropLast.map (⟨·,false⟩)++payload.getLast?.toList.map (⟨·,true⟩)⟩

def first : Packet := packetFor 1 24 [[1,1,1,1,1,1,1,1]]

def later : Packet := packetFor 129 32 [[2,2,2,2,2,2,2,2],[3,3,3,3,3,3,3,3]]

def quiet : Action := .call none true true false

def begun : List Action :=
  [.hand first, quiet, quiet, quiet, .mover, .call (some ⟨5,1,1⟩) true true false, quiet, .mover]

/-- The content is read and sent. -/
def finished : List Action :=
  [.call none true true true, .mover, .mover, .call none true true true, .call none true true true]

/-- Packet 129 takes the place of packet 1 between the two reads. -/
theorem overtaken_by_next_window :
    ∃ m, run exec (begun++[.hand later, quiet, quiet, quiet, quiet]++finished) (boot (fun _ => 0)) =
      some m ∧ ∃ c ∈ m.emitted, ¬Faithful m.handed c :=
  ⟨_,rfl,by decide⟩

/-- Packet 129 takes the place after the content of packet 1 is read. -/
theorem retransmissions_faithful_in_turn :
    ∃ m, run exec (begun++finished++[.hand later, quiet, quiet, quiet, quiet, .mover])
        (boot (fun _ => 0)) = some m ∧
      m.emitted = [⟨5,24,first.bytes⟩] ∧ ∀ c ∈ m.emitted, Faithful m.handed c := by
  refine ⟨_,rfl,by decide,?_⟩
  exact retransmissions_faithful (fun _ => 0)
    (begun++finished++[.hand later,quiet,quiet,quiet,quiet,.mover]) _ (by decide) rfl

end Clio.Retransmission
