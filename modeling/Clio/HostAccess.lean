import Clio.Errno
import Clio.Memory
import Clio.UnackedBuffer

/-!
# Reads and writes of the host library

A long access is cut in segments of one payload each.
-/

namespace Clio.HostAccess

open List UnackedBuffer Memory Errno
open BitVec (ofNat toNat_ofNat)
open Nat (add_assoc succ_mul)

def maxLegoPayload : ℕ := 1450

def sizeofReq : ℕ := 70

def legoHeaderOffset : ℕ := 42

def opOffset : ℕ := 58

def segmentSize (totalSize : ℕ) : ℕ :=
  if totalSize ≥ maxLegoPayload then maxLegoPayload else totalSize

def shift (nrSent : ℕ) : BitVec 64 :=
  (BitVec.ofNat 32 nrSent*BitVec.ofNat 32 maxLegoPayload).signExtend 64

def segments (totalSize : ℕ) : ℕ := (totalSize-1)/maxLegoPayload+1

def segmentLength (totalSize i : ℕ) : ℕ := segmentSize (totalSize-maxLegoPayload*i)

variable (totalSize : ℕ)

lemma segments_last (h : totalSize ≤ maxLegoPayload) : segments totalSize = 1 := by
  unfold segments maxLegoPayload at *
  omega

lemma segments_more (h : maxLegoPayload < totalSize) :
    segments totalSize = segments (totalSize-maxLegoPayload)+1 := by
  unfold segments maxLegoPayload at *
  omega

lemma segment_size_last (h : totalSize ≤ maxLegoPayload) : segmentSize totalSize = totalSize := by
  unfold segmentSize
  split_ifs with hge
  · exact Nat.le_antisymm hge h
  · rfl

lemma segment_length_full (i : ℕ) (h : i+1 < segments totalSize) :
    segmentLength totalSize i = maxLegoPayload := by
  unfold segments at h
  apply if_pos
  unfold maxLegoPayload at *
  omega

section

structure ReadRequest where
  tag : BitVec 8
  va : BitVec 64
  size : BitVec 32
  deriving DecidableEq, Repr

def OP_REQ_READ_RESP : BitVec 8 := 0x41

structure Reply where
  ret : ℤ
  reqStatus : BitVec 4
  opcode : BitVec 8
  data : List Byte
  deriving DecidableEq, Repr

def readRequest (addr : BitVec 64) (nrSent size : ℕ) : ReadRequest :=
  ⟨BitVec.ofNat 8 nrSent, addr+shift nrSent, BitVec.ofNat 32 size⟩

def sendReads (send : ℕ → Bool) (addr : BitVec 64) : ℕ → ℕ → ℕ → List ReadRequest
  | 0, _, _ => []
  | fuel+1, nrSent, totalSize =>
      let size := segmentSize totalSize
      if send nrSent then
        readRequest addr nrSent size::
          if totalSize-size = 0 then [] else sendReads send addr fuel (nrSent+1) (totalSize-size)
      else []

structure Cursor where
  mem : ℕ → Byte
  recvBuf : ℕ

def Reply.Accepted (reply : Reply) : Prop :=
  0 < reply.ret ∧ reply.reqStatus = 0 ∧ reply.opcode = OP_REQ_READ_RESP

instance (reply : Reply) : Decidable reply.Accepted := inferInstanceAs (Decidable (_ ∧ _ ∧ _))

def takeReply (cursor : Cursor) (reply : Reply) : Cursor :=
  if reply.ret ≤ 0 then cursor
  else if reply.reqStatus ≠ 0 then cursor
  else if reply.opcode ≠ OP_REQ_READ_RESP then cursor
  else ⟨store cursor.mem cursor.recvBuf reply.data, cursor.recvBuf+reply.data.length⟩

def takeReplies (replies : ℕ → Reply) (n : ℕ) (cursor : Cursor) : Cursor :=
  (List.range n).foldl (fun c i => takeReply c (replies i)) cursor

structure ReadResult where
  ret : ℤ
  sent : List ReadRequest
  received : ℕ
  mem : ℕ → Byte

def legomemReadWithSessionMsgbuf (send : ℕ → Bool) (replies : ℕ → Reply) (recvBuf : ℕ)
    (addr : BitVec 64) (totalSize : ℕ) (mem : ℕ → Byte) : ReadResult :=
  let sent := sendReads send addr (segments totalSize) 0 totalSize
  let received := (BitVec.ofNat 32 sent.length).toInt.toNat
  ⟨0, sent, received, (takeReplies replies received ⟨mem, recvBuf+sizeofReq⟩).mem⟩

variable (send : ℕ → Bool) (addr : BitVec 64)

lemma send_reads_length_le (fuel i totalSize : ℕ) :
    (sendReads send addr fuel i totalSize).length ≤ fuel := by
  induction fuel generalizing i totalSize with
  | zero => simp [sendReads]
  | succ fuel ih =>
    simp only [sendReads]
    split_ifs
    · simp
    · rw [length_cons]
      exact Nat.succ_le_succ (ih _ _)
    · simp

lemma send_reads_length (fuel i totalSize : ℕ) (hfuel : fuel = segments totalSize) :
    (sendReads send addr fuel i totalSize).length = fuel ↔ ∀ j < fuel, send (i+j) = true := by
  induction fuel generalizing i totalSize with
  | zero => exact absurd hfuel (Nat.succ_ne_zero _).symm
  | succ fuel ih =>
    simp only [sendReads]
    by_cases hsend : send i = true
    · rw [if_pos hsend,length_cons]
      by_cases hlast : totalSize ≤ maxLegoPayload
      · have hzero : totalSize-segmentSize totalSize = 0 := by
          rw [segment_size_last totalSize hlast,Nat.sub_self]
        have hf : fuel = 0 := by
          have := segments_last totalSize hlast
          omega
        rw [if_pos hzero,hf]
        simp [hsend]
      · have hsize : segmentSize totalSize = maxLegoPayload := if_pos (by omega)
        have hmore := segments_more totalSize (by omega)
        rw [hsize,if_neg (by omega),Nat.add_right_cancel_iff,ih _ _ (by omega)]
        constructor
        · intro h j hj
          cases j with
          | zero => exact hsend
          | succ j => simpa [add_assoc,Nat.add_comm 1 j] using h j (by omega)
        · intro h j hj
          have := h (j+1) (by omega)
          simpa [add_assoc,Nat.add_comm 1 j] using this
    · rw [if_neg hsend]
      constructor
      · intro h
        cases h
      · intro h
        exact absurd (h 0 (by omega)) hsend

variable (n : ℕ)

lemma received_le : (ofNat 32 n).toInt.toNat ≤ n := by
  rw [BitVec.toInt_eq_toNat_cond,toNat_ofNat]
  have := Nat.mod_le n (2^32)
  split_ifs <;> omega

lemma received_lt : (ofNat 32 n).toInt.toNat < 2^31 := by
  rw [BitVec.toInt_eq_toNat_cond,toNat_ofNat]
  have := Nat.mod_lt n (show 0 < 2^32 by decide)
  split_ifs <;> omega

lemma received_all (h : n < 2^31) : (ofNat 32 n).toInt.toNat = n := by
  rw [BitVec.toInt_eq_toNat_cond,toNat_ofNat,Nat.mod_eq_of_lt (by omega)]
  split_ifs <;> omega

lemma take_reply_accepted (cursor : Cursor) (reply : Reply) (h : reply.Accepted) :
    takeReply cursor reply =
      ⟨store cursor.mem cursor.recvBuf reply.data, cursor.recvBuf+reply.data.length⟩ := by
  obtain ⟨hret,hstatus,hopcode⟩ := h
  rw [takeReply,if_neg (by omega),if_neg (by simp [hstatus]),if_neg (by simp [hopcode])]

variable (replies : ℕ → Reply)

@[simp] lemma take_replies_zero (cursor : Cursor) : takeReplies replies 0 cursor = cursor := rfl

lemma take_replies_succ (n : ℕ) (cursor : Cursor) :
    takeReplies replies (n+1) cursor = takeReply (takeReplies replies n cursor) (replies n) := by
  rw [takeReplies,range_succ,foldl_append]
  rfl

def Answered (result : ReadResult) (replies : ℕ → Reply) (totalSize i : ℕ) : Prop :=
  i < result.received ∧ (replies i).Accepted ∧ (replies i).data.length = segmentLength totalSize i

def Placed (result : ReadResult) (replies : ℕ → Reply) (recvBuf i : ℕ) : Prop :=
  load result.mem (recvBuf+sizeofReq+i*maxLegoPayload) (replies i).data.length = (replies i).data

lemma take_replies_placed (totalSize base : ℕ) (mem : ℕ → Byte) (n : ℕ)
    (hn : n ≤ segments totalSize)
    (hok : ∀ i < n, (replies i).Accepted ∧ (replies i).data.length = segmentLength totalSize i) :
    (n < segments totalSize → (takeReplies replies n ⟨mem,base⟩).recvBuf = base+n*maxLegoPayload) ∧
      ∀ i < n, load (takeReplies replies n ⟨mem,base⟩).mem (base+i*maxLegoPayload)
        (replies i).data.length = (replies i).data := by
  induction n with
  | zero => simp
  | succ n ih =>
    obtain ⟨hcursor,hplaced⟩ := ih (by omega) (fun i hi => hok i (by omega))
    have hcursor := hcursor (by omega)
    obtain ⟨haccepted,hlength⟩ := hok n (by omega)
    rw [take_replies_succ,take_reply_accepted _ _ haccepted]
    constructor
    · intro hlt
      rw [hcursor,hlength,segment_length_full totalSize n hlt,succ_mul,add_assoc]
    · intro i hi
      rcases Nat.lt_succ_iff_lt_or_eq.mp hi with hlt | rfl
      · have hfull : (replies i).data.length = maxLegoPayload := by
          rw [(hok i (by omega)).2,segment_length_full totalSize i (by omega)]
        have hgap : i*maxLegoPayload+maxLegoPayload ≤ n*maxLegoPayload := by
          rw [← succ_mul]
          exact Nat.mul_le_mul_right _ hlt
        dsimp only
        rw [hcursor,load_store_apart _ _ _ _ _ (.inr (by omega))]
        exact hplaced i hlt
      · dsimp only
        rw [hcursor]
        exact load_store _ _ _

/-- The read keeps its promise exactly when nothing fails; it always returns 0. -/
theorem read_placed_iff (send : ℕ → Bool) (replies : ℕ → Reply) (recvBuf : ℕ)
    (addr : BitVec 64) (totalSize : ℕ) (mem : ℕ → Byte) :
    let result := legomemReadWithSessionMsgbuf send replies recvBuf addr totalSize mem
    ((result.ret = 0 → ∀ i < segments totalSize, Answered result replies totalSize i) ∧
        ∀ i < segments totalSize, Answered result replies totalSize i →
          Placed result replies recvBuf i) ↔
      segments totalSize < 2^31 ∧ (∀ i < segments totalSize, send i = true) ∧
        ∀ i < segments totalSize, (replies i).Accepted ∧
          (replies i).data.length = segmentLength totalSize i := by
  intro result
  have hall := send_reads_length send addr (segments totalSize) 0 totalSize rfl
  have hle := send_reads_length_le send addr (segments totalSize) 0 totalSize
  have hpos : 0 < segments totalSize := Nat.succ_pos _
  have hreceived : result.received = (ofNat 32
    (sendReads send addr (segments totalSize) 0 totalSize).length).toInt.toNat := rfl
  simp only [Nat.zero_add] at hall
  constructor
  · rintro ⟨hret,-⟩
    have hanswered := hret rfl
    have hlast := (hanswered (segments totalSize-1) (by omega)).1
    rw [hreceived] at hlast
    have hlt := received_lt (sendReads send addr (segments totalSize) 0 totalSize).length
    have hsent := received_le (sendReads send addr (segments totalSize) 0 totalSize).length
    exact ⟨by omega,hall.mp (by omega),fun i hi => (hanswered i hi).2⟩
  · rintro ⟨hbound,hsend,hok⟩
    have hnumber : result.received = segments totalSize := by
      rw [hreceived,hall.mpr hsend,received_all _ hbound]
    have hanswered : ∀ i < segments totalSize, Answered result replies totalSize i :=
      fun i hi => ⟨by omega,hok i hi⟩
    refine ⟨fun _ => hanswered,?_⟩
    intro i hi _
    have hplaced := (take_replies_placed replies totalSize (recvBuf+sizeofReq) mem
      (segments totalSize) (Nat.le_refl _) hok).2 i hi
    have hmem : result.mem =
        (takeReplies replies result.received ⟨mem,recvBuf+sizeofReq⟩).mem := rfl
    rw [Placed,hmem,hnumber]
    exact hplaced

def halfAnswered : ℕ → Reply
  | 0 => ⟨70, 1, OP_REQ_READ_RESP, []⟩
  | _ => ⟨71, 0, OP_REQ_READ_RESP, [7]⟩

/-- The first segment fails: the byte of the second is in its place, and 0 is returned. -/
theorem second_segment_moved :
    let result := legomemReadWithSessionMsgbuf (fun _ => true) halfAnswered 0 0 1451 (fun _ => 0)
    result.ret = 0 ∧ segments 1451 = 2 ∧ ¬ Answered result halfAnswered 1451 0 ∧
      Answered result halfAnswered 1451 1 ∧ ¬ Placed result halfAnswered 0 1 := by
  refine ⟨rfl,rfl,?_,?_,?_⟩
  · rintro ⟨-,⟨-,h,-⟩,-⟩
    exact absurd h (by decide)
  · exact ⟨by decide,by decide,by decide⟩
  · unfold Placed
    decide +kernel

end

inductive WriteFlag where
  | sync
  | async
  deriving DecidableEq, Repr

/-- `OP_REQ_WRITE` or `OP_REQ_WRITE_NOREPLY`. -/
def WriteFlag.opcode : WriteFlag → ℕ
  | .sync => 0x50
  | .async => 0x52

def maxRecvBufferSize : ℕ := 2048*1024

def putHeader (mem : ℕ → Byte) (req : ℕ) (va : BitVec 64) (size pid opcode : ℕ) : ℕ → Byte :=
  let mem := store mem (req+opOffset) (leBytes 8 va.toNat)
  let mem := store mem (req+opOffset+8) (leBytes 4 size)
  let mem := store mem (req+legoHeaderOffset) (leBytes 2 pid)
  store mem (req+legoHeaderOffset+3) (leBytes 1 opcode)

structure WriteArgs where
  pid : ℕ
  flag : WriteFlag
  sendBuf : ℕ
  addr : BitVec 64
  deriving DecidableEq, Repr

def sendWrites (send : ℕ → Bool) (args : WriteArgs) : ℕ → ℕ → ℕ → (ℕ → Byte) → List (List Byte)
  | 0, _, _, _ => []
  | fuel+1, nrSent, totalSize, mem =>
      let size := segmentSize totalSize
      let req := args.sendBuf+(shift nrSent).toNat
      let mem := putHeader mem req (args.addr+shift nrSent) size args.pid args.flag.opcode
      if send nrSent then
        load mem req (size+sizeofReq)::
          if totalSize-size = 0 then []
          else sendWrites send args fuel (nrSent+1) (totalSize-size) mem
      else []

structure WriteResult where
  ret : ℤ
  packets : List (List Byte)
  deriving DecidableEq, Repr

def legomemWriteWithSession (send : ℕ → Bool) (args : WriteArgs) (totalSize : ℕ)
    (mem : ℕ → Byte) : WriteResult :=
  if totalSize > maxRecvBufferSize then ⟨-EINVAL, []⟩
  else ⟨0, sendWrites send args (segments totalSize) 0 totalSize mem⟩

structure WriteRequest where
  va : BitVec 64
  size : ℕ
  payload : List Byte
  deriving DecidableEq, Repr

def parseWrite (packet : List Byte) : WriteRequest :=
  ⟨BitVec.ofNat 64 (leNat ((packet.drop opOffset).take 8)),
    leNat ((packet.drop (opOffset+8)).take 4), packet.drop sizeofReq⟩

def Tiling : BitVec 64 → List WriteRequest → Prop
  | _, [] => True
  | va, request::requests =>
      request.va = va ∧ request.size = request.payload.length ∧
        Tiling (va+BitVec.ofNat 64 request.payload.length) requests

lemma put_header_apart (mem : ℕ → Byte) (req target n : ℕ) (va : BitVec 64)
    (size pid opcode : ℕ) (h : req+sizeofReq ≤ target) :
    load (putHeader mem req va size pid opcode) target n = load mem target n := by
  unfold sizeofReq at h
  unfold putHeader opOffset legoHeaderOffset
  dsimp only
  rw [load_store_apart _ _ _ _ _ (.inl (by rw [length_le_bytes]; omega)),
    load_store_apart _ _ _ _ _ (.inl (by rw [length_le_bytes]; omega)),
    load_store_apart _ _ _ _ _ (.inl (by rw [length_le_bytes]; omega)),
    load_store_apart _ _ _ _ _ (.inl (by rw [length_le_bytes]; omega))]

section

variable (mem : ℕ → Byte) (req : ℕ) (va : BitVec 64) (size pid opcode : ℕ)
include mem req va size pid opcode

lemma put_header_va :
    load (putHeader mem req va size pid opcode) (req+opOffset) 8 = leBytes 8 va.toNat := by
  unfold putHeader legoHeaderOffset
  dsimp only
  rw [load_store_apart _ _ _ _ _ (.inl (by rw [length_le_bytes,opOffset]; omega)),
    load_store_apart _ _ _ _ _ (.inl (by rw [length_le_bytes,opOffset]; omega)),
    load_store_apart _ _ _ _ _ (.inr (by omega))]
  have h := load_store mem (req+opOffset) (leBytes 8 va.toNat)
  rwa [length_le_bytes] at h

lemma put_header_size :
    load (putHeader mem req va size pid opcode) (req+opOffset+8) 4 = leBytes 4 size := by
  unfold putHeader legoHeaderOffset
  dsimp only
  rw [load_store_apart _ _ _ _ _ (.inl (by rw [length_le_bytes,opOffset]; omega)),
    load_store_apart _ _ _ _ _ (.inl (by rw [length_le_bytes,opOffset]; omega))]
  have h := load_store (store mem (req+opOffset) (leBytes 8 va.toNat)) (req+opOffset+8)
    (leBytes 4 size)
  rwa [length_le_bytes] at h

lemma parse_put_header (hsize : size < 2^32) :
    parseWrite (load (putHeader mem req va size pid opcode) req (size+sizeofReq)) =
      ⟨va, size, load mem (req+sizeofReq) size⟩ := by
  have hsplit : load (putHeader mem req va size pid opcode) req (size+sizeofReq) =
      load (putHeader mem req va size pid opcode) req opOffset++(leBytes 8 va.toNat++
        (leBytes 4 size++load mem (req+sizeofReq) size)) := by
    rw [← put_header_apart mem req (req+sizeofReq) size va size pid opcode (Nat.le_refl _),
      ← put_header_size mem req va size pid opcode,← put_header_va mem req va size pid opcode,
      show size+sizeofReq = opOffset+(8+(4+size)) by unfold sizeofReq opOffset; omega,
      load_add,load_add,load_add]
    rfl
  have hva : leNat (leBytes 8 va.toNat) = va.toNat := by
    rw [le_nat_bytes]
    exact Nat.mod_eq_of_lt va.isLt
  have hlen : leNat (leBytes 4 size) = size := by
    rw [le_nat_bytes]
    exact Nat.mod_eq_of_lt hsize
  have htail : ∀ (header va size rest : List Byte), header.length = opOffset → va.length = 8 →
      size.length = 4 → parseWrite (header++(va++(size++rest))) =
        ⟨ofNat 64 (leNat va),leNat size,rest⟩ := by
    intro header va size rest h1 h2 h3
    unfold parseWrite
    rw [drop_left' h1,take_left' h2,← append_assoc header,
      drop_left' (by rw [length_append,h1,h2]),take_left' h3,
      ← append_assoc (header++va),
      drop_left' (by rw [length_append,length_append,h1,h2,h3]; rfl)]
  rw [hsplit,htail _ _ _ _ (length_load _ _ _) (length_le_bytes _ _) (length_le_bytes _ _),hva,
    hlen,BitVec.ofNat_toNat,BitVec.setWidth_eq]

end

lemma shift_eq (nrSent : ℕ) (h : nrSent*maxLegoPayload < 2^31) :
    shift nrSent = ofNat 64 (nrSent*maxLegoPayload) := by
  have hmul : ofNat 32 nrSent*ofNat 32 maxLegoPayload =
      ofNat 32 (nrSent*maxLegoPayload) := by rw [BitVec.ofNat_mul]
  rw [shift,hmul,BitVec.signExtend_eq_setWidth_of_msb_false]
  · apply BitVec.eq_of_toNat_eq
    simp
    omega
  · rw [BitVec.msb_eq_decide]
    simp
    omega

lemma send_writes_tile (send : ℕ → Bool) (args : WriteArgs) (fuel i totalSize : ℕ)
    (mem : ℕ → Byte) (hfuel : fuel = segments totalSize)
    (hbound : i*maxLegoPayload+totalSize < 2^31) :
    let requests := (sendWrites send args fuel i totalSize mem).map parseWrite
    let bytes := load mem (args.sendBuf+i*maxLegoPayload+sizeofReq) totalSize
    Tiling (args.addr+ofNat 64 (i*maxLegoPayload)) requests ∧
      (requests.map WriteRequest.payload).flatten <+: bytes ∧
      ((∀ j < fuel, send (i+j) = true) → (requests.map WriteRequest.payload).flatten = bytes) := by
  induction fuel generalizing i totalSize mem with
  | zero => exact absurd hfuel (Nat.succ_ne_zero _).symm
  | succ fuel ih =>
    have hshift := shift_eq i (by omega)
    have hreq : (ofNat 64 (i*maxLegoPayload)).toNat = i*maxLegoPayload := by
      rw [toNat_ofNat,Nat.mod_eq_of_lt (by omega)]
    have hsmall : segmentSize totalSize ≤ totalSize := by unfold segmentSize; split_ifs <;> omega
    have hparse := parse_put_header mem (args.sendBuf+i*maxLegoPayload)
      (args.addr+ofNat 64 (i*maxLegoPayload)) (segmentSize totalSize) args.pid
      args.flag.opcode (by omega)
    simp only [sendWrites,hshift,hreq]
    by_cases hsend : send i = true
    · rw [if_pos hsend]
      by_cases hlast : totalSize ≤ maxLegoPayload
      · have hsize := segment_size_last totalSize hlast
        rw [if_pos (by omega),map_singleton,hparse,hsize]
        simp [Tiling]
      · have hsize : segmentSize totalSize = maxLegoPayload := if_pos (by omega)
        have hmore := segments_more totalSize (by omega)
        obtain ⟨htile,hpart,hwhole⟩ := ih (i+1) (totalSize-maxLegoPayload)
          (putHeader mem (args.sendBuf+i*maxLegoPayload)
            (args.addr+ofNat 64 (i*maxLegoPayload)) maxLegoPayload args.pid
            args.flag.opcode) (by omega) (by rw [succ_mul]; omega)
        have hnext : args.sendBuf+i*maxLegoPayload+sizeofReq+maxLegoPayload =
            args.sendBuf+(i+1)*maxLegoPayload+sizeofReq := by rw [succ_mul]; omega
        have hsplit : load mem (args.sendBuf+i*maxLegoPayload+sizeofReq) totalSize =
            load mem (args.sendBuf+i*maxLegoPayload+sizeofReq) maxLegoPayload++
              load mem (args.sendBuf+(i+1)*maxLegoPayload+sizeofReq)
                (totalSize-maxLegoPayload) := by
          rw [← hnext,← load_add,Nat.add_sub_of_le (by omega)]
        rw [put_header_apart _ _ _ _ _ _ _ _ (by omega)] at hpart hwhole
        rw [hsize] at hparse
        rw [hsize,if_neg (by omega),map_cons,hparse,hsplit]
        refine ⟨⟨rfl,?_,?_⟩,?_,?_⟩
        · dsimp only
          rw [length_load]
        · rw [length_load,BitVec.add_assoc,← BitVec.ofNat_add,← succ_mul]
          exact htile
        · rw [map_cons,flatten_cons]
          dsimp only
          rw [prefix_append_right_inj]
          exact hpart
        · intro hall
          rw [map_cons,flatten_cons,hwhole]
          intro j hj
          have := hall (j+1) (by omega)
          rwa [← add_assoc,Nat.add_right_comm] at this
    · rw [if_neg hsend]
      refine ⟨trivial, nil_prefix,?_⟩
      intro hall
      exact absurd (hall 0 (by omega)) hsend

/-- A write up to the size of the buffers sends the user's bytes once and in order. -/
theorem write_sends_user_bytes (send : ℕ → Bool) (args : WriteArgs) (totalSize : ℕ)
    (mem : ℕ → Byte) :
    let result := legomemWriteWithSession send args totalSize mem
    let requests := result.packets.map parseWrite
    let bytes := load mem (args.sendBuf+sizeofReq) totalSize
    (totalSize ≤ maxRecvBufferSize →
      Tiling args.addr requests ∧ (requests.map WriteRequest.payload).flatten <+: bytes ∧
        ((∀ i < segments totalSize, send i = true) →
          (requests.map WriteRequest.payload).flatten = bytes)) ∧
      (maxRecvBufferSize < totalSize → result = ⟨-EINVAL,[]⟩) := by
  constructor
  · intro hle
    have h := send_writes_tile send args (segments totalSize) 0 totalSize mem rfl
      (by unfold maxRecvBufferSize at hle; omega)
    simp only [Nat.zero_mul,BitVec.add_zero,Nat.zero_add,Nat.add_zero] at h
    rw [legomemWriteWithSession,if_neg (Nat.not_lt.mpr hle)]
    exact h
  · intro hlt
    exact if_pos hlt

/-- The bytes from offset 70 on are sent to address 5 in three packets. -/
theorem write_sends_three_packets :
    let result := legomemWriteWithSession (fun _ => true) ⟨1,.sync,0,5⟩ 3000 (fun x => ofNat 8 x)
    let requests := result.packets.map parseWrite
    requests.length = 3 ∧ Tiling 5 requests ∧
      (requests.map WriteRequest.payload).flatten = load (fun x => ofNat 8 x) 70 3000 := by
  have h := (write_sends_user_bytes (fun _ => true) ⟨1,.sync,0,5⟩ 3000 (fun x => ofNat 8 x)).1
    (by decide)
  exact ⟨by decide +kernel,h.1,h.2.2 fun _ _ => rfl⟩

/-- One byte over the limit: no packet, and so not the user's bytes. -/
theorem long_write_sends_nothing :
    let result := legomemWriteWithSession (fun _ => true) ⟨1,.sync,0,0⟩ (maxRecvBufferSize+1)
      (fun _ => 0)
    result.packets = [] ∧ ((result.packets.map parseWrite).map WriteRequest.payload).flatten ≠
      load (fun _ => (0 : Byte)) sizeofReq (maxRecvBufferSize+1) := by
  intro result
  have hnone : result.packets = [] := rfl
  refine ⟨hnone,?_⟩
  intro h
  rw [hnone] at h
  have hlength := congrArg List.length h
  rw [length_load] at hlength
  exact absurd hlength (by decide)

end Clio.HostAccess
