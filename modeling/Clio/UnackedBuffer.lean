import Clio.StateTable

/-!
# The buffer of unacknowledged packets

Every packet is written to board memory at a place given by its slot and number.
-/

namespace Clio.UnackedBuffer

open StateTable

abbrev Byte := BitVec 8

structure NetAxis64 where
  bytes : List Byte
  last : Bool
  deriving DecidableEq, Repr

structure RouteInfo where
  destIp : BitVec 32
  length : BitVec 16
  deriving DecidableEq, Repr

structure DmCmd where
  btt : ℕ
  startAddress : ℕ
  deriving DecidableEq, Repr

def maxPacketSize : ℕ := 1536

def buffAddressStart : ℕ := 0x500000000

def leNat : List Byte → ℕ
  | [] => 0
  | b::bs => b.toNat+256*leNat bs

def leBytes : ℕ → ℕ → List Byte
  | 0, _ => []
  | n+1, x => BitVec.ofNat 8 x::leBytes n (x/256)

lemma le_nat_bytes (n x : ℕ) : leNat (leBytes n x) = x%256^n := by
  induction n generalizing x with
  | zero => simp [leBytes,leNat,Nat.mod_one]
  | succ n ih =>
    rw [leBytes,leNat,ih,BitVec.toNat_ofNat,show (2:ℕ)^8 = 256 from rfl,Nat.pow_succ', Nat.mod_mul]

lemma length_le_bytes (n x : ℕ) : (leBytes n x).length = n := by
  induction n generalizing x with
  | zero => rfl
  | succ n ih => rw [leBytes,List.length_cons,ih]

def buffSlotId (packet : NetAxis64) : SlotId := BitVec.ofNat 10 (leNat packet.bytes/2^40)

def buffWindowIdx (packet : NetAxis64) : ℕ := leNat packet.bytes/2^8%windowSize

def bufferAddress (slot : SlotId) (windowIdx : ℕ) : ℕ :=
  buffAddressStart+(slot.toNat*windowSize+windowIdx)*maxPacketSize

inductive RecvState where
  | recvInfo
  | writeHeader (packet : NetAxis64)
  | recvPayload
  deriving DecidableEq, Repr

inductive RetransState where
  | recvReq
  | readLen (req : RetransReq) (seq : Seqnum)
  | retransHeader (req : RetransReq) (seq : Seqnum)
  | retransPayload (req : RetransReq) (seq : Seqnum)
  deriving DecidableEq, Repr

structure BufState where
  recv : RecvState
  retrans : RetransState
  destIp : SlotId → BitVec 32

structure RecvOut where
  wrCmd : Option DmCmd := none
  wrData : Option NetAxis64 := none
  deriving DecidableEq, Repr

structure RetransOut where
  rdCmd1 : Option DmCmd := none
  rdCmd2 : Option DmCmd := none
  rtHeader : Option UdpInfo := none
  rtPayload : Option NetAxis64 := none
  timer : Option TimerReq := none
  deriving DecidableEq, Repr

def powerUp : BufState := ⟨.recvInfo, .recvReq, fun _ => 0⟩

def lengthBeat (length : BitVec 16) : NetAxis64 := ⟨leBytes 8 length.toNat, false⟩

def writeCmd (packet : NetAxis64) (route : RouteInfo) : DmCmd :=
  ⟨route.length.toNat, bufferAddress (buffSlotId packet) (buffWindowIdx packet)⟩

def recvStep (b : BufState) (payload : Option NetAxis64) (route : Option RouteInfo) :
    BufState × RecvOut :=
  match b.recv with
  | .recvInfo =>
      match payload, route with
      | some packet, some info =>
          ({ b with recv := .writeHeader packet,
                    destIp := Function.update b.destIp (buffSlotId packet) info.destIp },
            { wrCmd := some (writeCmd packet info), wrData := some (lengthBeat info.length) })
      | _, _ => (b, {})
  | .writeHeader packet => ({ b with recv := .recvPayload }, { wrData := some packet })
  | .recvPayload =>
      match payload with
      | none => (b, {})
      | some packet =>
          (if packet.last then { b with recv := .recvInfo } else b, { wrData := some packet })

def startAddr (req : RetransReq) (seq : Seqnum) : ℕ :=
  bufferAddress req.slotid (seq.toNat%windowSize)

def rdLength (beat : NetAxis64) : BitVec 16 := BitVec.ofNat 16 (leNat beat.bytes)

def contentCmd (req : RetransReq) (seq : Seqnum) (beat : NetAxis64) : DmCmd :=
  ⟨((rdLength beat).toNat+2^23-8)%2^23, startAddr req seq+8⟩

def retransUdpInfo (b : BufState) (req : RetransReq) (beat : NetAxis64) : UdpInfo :=
  ⟨0, b.destIp req.slotid, legomemPort, legomemPort, rdLength beat⟩

def retransHeader (b : BufState) (req : RetransReq) (seq : Seqnum) (rdCmd1 : Option DmCmd)
    (rdData : Option NetAxis64) : BufState × RetransOut :=
  match rdData with
  | none => ({ b with retrans := .retransHeader req seq }, { rdCmd1 := rdCmd1 })
  | some beat =>
      ({ b with retrans := .retransPayload req seq },
        { rdCmd1 := rdCmd1, rdCmd2 := some (contentCmd req seq beat),
          rtHeader := some (retransUdpInfo b req beat) })

def retransPayload (b : BufState) (req : RetransReq) (seq : Seqnum) (beat : NetAxis64) :
    BufState × RetransOut :=
  if beat.last then
    if req.seqEnd < seq+1 then
      ({ b with retrans := .recvReq },
        { rtPayload := some beat, timer := some ⟨req.slotid, .reset⟩ })
    else ({ b with retrans := .readLen req (seq+1) }, { rtPayload := some beat })
  else (b, { rtPayload := some beat })

def retransStep (b : BufState) (gbnRetransReq : Option RetransReq)
    (rdData : Option NetAxis64) : BufState × RetransOut :=
  match b.retrans with
  | .recvReq =>
      match gbnRetransReq with
      | none => (b, {})
      | some req =>
          if req.seqEnd < req.seqStart then (b, {})
          else ({ b with retrans := .readLen req req.seqStart }, {})
  | .readLen req seq =>
      -- no break in the source: the next state is entered in the same call
      retransHeader b req seq (some ⟨8, startAddr req seq⟩) rdData
  | .retransHeader req seq => retransHeader b req seq none rdData
  | .retransPayload req seq =>
      match rdData with
      | none => (b, {})
      | some beat => retransPayload b req seq beat

def executing (b : BufState) : Option RetransReq :=
  match b.retrans with
  | .recvReq => none
  | .readLen req _ => some req
  | .retransHeader req _ => some req
  | .retransPayload req _ => some req

variable (b : BufState)

@[simp] lemma recv_step_retrans (payload : Option NetAxis64) (route : Option RouteInfo) :
    (recvStep b payload route).1.retrans = b.retrans := by
  unfold recvStep
  split
  · split <;> rfl
  · rfl
  · split
    · rfl
    · split_ifs <;> rfl

variable (gbnRetransReq : Option RetransReq) (rdData : Option NetAxis64)

lemma executing_next (req : RetransReq) (h : executing b = some req) :
    executing (retransStep b gbnRetransReq rdData).1 = some req ∨
      (retransStep b gbnRetransReq rdData).2.timer = some ⟨req.slotid,.reset⟩ := by
  unfold executing at h
  unfold retransStep retransHeader retransPayload
  cases hst : b.retrans with
  | recvReq => simp [hst] at h
  | readLen r seq | retransHeader r seq =>
    rw [hst] at h
    cases rdData <;> exact .inl h
  | retransPayload r seq =>
    have hr : r = req := by simpa [hst] using h
    cases rdData with
    | none => exact .inl (by simp [executing,hst,hr])
    | some beat =>
      dsimp only
      split_ifs
      · exact .inr (by rw [hr])
      · exact .inl (by simp [executing,hr])
      · exact .inl (by simp [executing,hst,hr])

lemma retrans_timer_reset (req : TimerReq)
    (h : (retransStep b gbnRetransReq rdData).2.timer = some req) : req.rstType = .reset := by
  unfold retransStep retransHeader retransPayload at h
  cases hst : b.retrans with
  | recvReq =>
    rw [hst] at h
    cases gbnRetransReq with
    | none => cases h
    | some r =>
      dsimp only at h
      split_ifs at h
  | readLen r seq | retransHeader r seq => rw [hst] at h; cases rdData <;> cases h
  | retransPayload r seq =>
    rw [hst] at h
    cases rdData with
    | none => cases h
    | some beat =>
      dsimp only at h
      split_ifs at h
      cases h
      rfl

end Clio.UnackedBuffer
