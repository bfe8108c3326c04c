import Clio.Memory
import Clio.UnackedBuffer

/-!
# The key-value engine

A hash table of lines with seven entries and a link each. A request fetches the line of its key's
hash.
-/

namespace Clio.KeyValueEngine

open UnackedBuffer Memory

abbrev Key := BitVec 64

/-- `hteEntryWidth` is 16 in both configurations that set it. -/
abbrev Hash := BitVec 16

structure KeyValueHashEntry where
  ptr : BitVec 32
  valid : Bool
  valueSize : BitVec 16
  keySize : BitVec 4
  check : BitVec 8
  deriving DecidableEq, Repr

def KeyValueHashEntry.asFull (entry : KeyValueHashEntry) : ℕ :=
  entry.ptr.toNat+2^32*entry.valueSize.toNat+2^48*entry.keySize.toNat+2^52*entry.valid.toNat+
    2^56*entry.check.toNat

def fromFull (bits : ℕ) : KeyValueHashEntry :=
  ⟨BitVec.ofNat 32 bits, bits/2^52%2 == 1, BitVec.ofNat 16 (bits/2^32),
    BitVec.ofNat 4 (bits/2^48), BitVec.ofNat 8 (bits/2^56)⟩

lemma as_full_lt (entry : KeyValueHashEntry) : entry.asFull < 256^8 := by
  have h1 := entry.ptr.isLt
  have h2 := entry.valueSize.isLt
  have h3 := entry.keySize.isLt
  have h4 := entry.check.isLt
  have h5 := Bool.toNat_le entry.valid
  unfold KeyValueHashEntry.asFull
  omega

lemma from_as_full (entry : KeyValueHashEntry) : fromFull entry.asFull = entry := by
  obtain ⟨ptr,valid,valueSize,keySize,check⟩ := entry
  have h1 := ptr.isLt
  have h2 := valueSize.isLt
  have h3 := keySize.isLt
  have h4 := check.isLt
  have h5 := Bool.toNat_le valid
  simp only [fromFull,KeyValueHashEntry.asFull,KeyValueHashEntry.mk.injEq]
  refine ⟨?_,?_,?_,?_,?_⟩
  · apply BitVec.eq_of_toNat_eq
    rw [BitVec.toNat_ofNat]
    omega
  · cases valid
    · rw [beq_eq_false_iff_ne]
      simp only [Bool.toNat_false]
      omega
    · rw [beq_iff_eq]
      simp only [Bool.toNat_true]
      omega
  · apply BitVec.eq_of_toNat_eq
    rw [BitVec.toNat_ofNat]
    omega
  · apply BitVec.eq_of_toNat_eq
    rw [BitVec.toNat_ofNat]
    omega
  · apply BitVec.eq_of_toNat_eq
    rw [BitVec.toNat_ofNat]
    omega

inductive Command where
  | read
  | write
  | update
  | delete
  deriving DecidableEq, Repr

structure BucketCommand where
  cmd : Command
  keySize : BitVec 4
  valueSize : BitVec 16
  id : BitVec 16
  entryAddr : BitVec 32
  deriving DecidableEq, Repr

structure EntryCommand where
  cmd : Command
  last : Bool
  hasNext : Bool
  matched : Bool
  entryValid : Bool
  id : BitVec 16
  entrySlot : ℕ
  entryAddr : BitVec 32
  linkAddr : BitVec 32
  entry : KeyValueHashEntry
  deriving DecidableEq, Repr

namespace EntryCommand

def is (c : EntryCommand) (cmd : Command) : Bool := c.cmd = cmd

def loopback (c : EntryCommand) : Bool :=
  if c.is .write then !c.entryValid && c.hasNext else c.last && c.hasNext

def needMatch (c : EntryCommand) : Bool :=
  (c.is .read || c.is .update || c.is .delete) && c.entry.valid

def needFetchedData (c : EntryCommand) : Bool := c.is .read && c.entry.valid

/-- 16 bits, with the carry dropped. -/
def kvSize (c : EntryCommand) : BitVec 16 := c.entry.valueSize+8

def fetchSize (c : EntryCommand) : BitVec 16 := if c.is .read then c.kvSize else 8

def entrySlotAddr (c : EntryCommand) : BitVec 32 := c.entryAddr+BitVec.ofNat 32 (c.entrySlot*8)

end EntryCommand

/-- The eight words of a line, the link last. -/
abbrev Line := ℕ → KeyValueHashEntry

def entryAt (mem : ℕ → Byte) (b i : ℕ) : KeyValueHashEntry := fromFull (leNat (load mem (b+8*i) 8))

def lineAt (mem : ℕ → Byte) (b : ℕ) : Line := entryAt mem b

def putEntry (mem : ℕ → Byte) (address : ℕ) (entry : KeyValueHashEntry) : ℕ → Byte :=
  store mem address (leBytes 8 entry.asFull)

def keyAt (mem : ℕ → Byte) (ptr : ℕ) : Key := BitVec.ofNat 64 (leNat (load mem ptr 8))

section

def matchHashTableEntry (cmd : Command) (key : Key) (entry : KeyValueHashEntry) : Bool :=
  if cmd = .write then false else entry.valid && key.setWidth 8 == entry.check

def matchBits (line : Line) (cmd : Command) (key : Key) : List ℕ :=
  (List.range 7).filter (fun i => matchHashTableEntry cmd key (line i))

def commits : List ℕ → List (Option ℕ × Bool)
  | [] => [(none,true)]
  | [i] => [(some i,true)]
  | i::j::is => (some i,false)::commits (j::is)

def freeSlot (line : Line) : Option ℕ := (List.range 7).find? (fun i => !(line i).valid)

def entryCommand (line : Line) (b : BucketCommand) (key : Key) (selected : Option ℕ × Bool) :
    EntryCommand :=
  let selectedBin := selected.1.getD 0
  { cmd := b.cmd
    last := selected.2
    hasNext := (line 7).valid
    matched := false
    entryValid := (freeSlot line).isSome
    id := b.id
    entrySlot := if b.cmd = .write then (freeSlot line).getD 0 else selectedBin
    entryAddr := b.entryAddr
    linkAddr := (line 7).ptr
    entry :=
      { ptr := (line selectedBin).ptr
        valid := if b.cmd = .write then true else (line selectedBin).valid && selected.1.isSome
        valueSize := b.valueSize
        keySize := b.keySize
        check := key.setWidth 8 } }

def entryCommands (line : Line) (b : BucketCommand) (key : Key) : List EntryCommand :=
  (commits (matchBits line b.cmd key)).map (entryCommand line b key)

structure Allocator where
  count : ℕ
  block : ℕ → BitVec 32
  room : ℕ → ℕ
  line_le : ∀ n < count, 64 ≤ room n
  end_le : ∀ n < count, (block n).toNat+room n ≤ 2^32
  table_le : ∀ n < count, 4*1024*1024 ≤ (block n).toNat
  apart : ∀ m < count, ∀ n < count, m ≠ n →
    (block m).toNat+room m ≤ (block n).toNat ∨ (block n).toNat+room n ≤ (block m).toNat

variable (A : Allocator)

def linkEntry (ptr : BitVec 32) : KeyValueHashEntry := ⟨ptr,true,0,0,0⟩

structure Allocated where
  allocs : ℕ
  command : EntryCommand
  link : Option (BitVec 32 × KeyValueHashEntry)
  deriving DecidableEq, Repr

/-- A write asks for a block for its data, and for a line if its chain is full. -/
def allocate (n : ℕ) (c : EntryCommand) : Allocated :=
  if c.is .write && !c.loopback then
    if c.entryValid then
      ⟨n+1, { c with matched := true, entry := { c.entry with ptr := A.block n } }, none⟩
    else
      ⟨n+2, { c with linkAddr := A.block (n+1), entryAddr := A.block (n+1), matched := true,
                     entry := { c.entry with ptr := A.block n } },
        some (c.entryAddr+56,linkEntry (A.block (n+1)))⟩
  else ⟨n,c,none⟩

def allocateAll : ℕ → List EntryCommand →
    ℕ × List EntryCommand × List (BitVec 32 × KeyValueHashEntry)
  | n, [] => (n,[],[])
  | n, c::cs =>
      let a := allocate A n c
      let rest := allocateAll a.allocs cs
      (rest.1,a.command::rest.2.1,a.link.toList++rest.2.2)

end

section

def fetchMatch (mem : ℕ → Byte) (key : Key) (c : EntryCommand) : EntryCommand :=
  if c.needMatch then { c with matched := keyAt mem c.entry.ptr.toNat == key } else c

def matchedCmd : Bool → List EntryCommand → List EntryCommand
  | _, [] => []
  | committed, c::cs =>
      let take := c.matched || c.last && !committed
      let rest := matchedCmd (if c.last then false else committed || take) cs
      if take then c::rest else rest

def keepInputData (c : EntryCommand) : Bool :=
  c.is .write || c.is .update && c.matched || c.loopback && !c.matched

def isDataCommit (c : EntryCommand) : Bool := (c.is .write || c.is .update) && c.matched

def isMetaCommit (c : EntryCommand) : Bool := (c.is .write || c.is .delete) && c.matched

def isLoopback (c : EntryCommand) : Bool := !c.matched && c.hasNext

structure KeyValueReply where
  id : BitVec 16
  success : Bool
  deriving DecidableEq, Repr

/-- A transfer at a value pointer. -/
structure Access where
  ptr : BitVec 32
  len : BitVec 16
  deriving DecidableEq, Repr

structure Output where
  replies : List KeyValueReply := []
  packets : List (List Byte) := []
  accesses : List Access := []
  deriving DecidableEq, Repr

def Output.append (o p : Output) : Output :=
  ⟨o.replies++p.replies,o.packets++p.packets,o.accesses++p.accesses⟩

/-- The memory, the number of blocks handed out, and the queues between the stages. -/
structure Engine where
  mem : ℕ → Byte
  allocs : ℕ
  keepSignals : List Bool
  hitSignals : List Bool
  dataSignals : List Bool
  dataCommits : List EntryCommand
  loopHeaders : List BucketCommand
  loopData : List (List Byte)

def loopHeader (c : EntryCommand) : BucketCommand :=
  ⟨c.cmd,c.entry.keySize,c.entry.valueSize,c.id,c.linkAddr⟩

def routeData (e : Engine) (data : List Byte) : Engine :=
  match e.keepSignals with
  | [] => e
  | false::keep => { e with keepSignals := keep }
  | true::keep =>
      match e.dataSignals with
      | [] => { e with keepSignals := keep }
      | false::signals =>
          { e with keepSignals := keep, dataSignals := signals, loopData := e.loopData++[data] }
      | true::signals =>
          match e.dataCommits with
          | [] => { e with keepSignals := keep, dataSignals := signals }
          | c::cs =>
              { e with keepSignals := keep, dataSignals := signals, dataCommits := cs
                       mem := store e.mem c.entry.ptr.toNat (data.take c.kvSize.toNat) }

def putEntries (mem : ℕ → Byte) (entries : List (BitVec 32 × KeyValueHashEntry)) : ℕ → Byte :=
  entries.foldl (fun mem p => putEntry mem p.1.toNat p.2) mem

def fetchedData (mem : ℕ → Byte) (cs : List EntryCommand) : List (List Byte) :=
  (cs.filter (fun c => c.needFetchedData && (8 : BitVec 16) < c.fetchSize)).map
    (fun c => load mem (c.entry.ptr.toNat+8) (c.fetchSize.toNat-8))

variable (A : Allocator)

def settle (e : Engine) (cs : List EntryCommand) (data : List Byte) : Engine × Output :=
  let committed := matchedCmd false cs
  let hits := e.hitSignals++(cs.filter EntryCommand.needFetchedData).map EntryCommand.matched
  let fetched := fetchedData e.mem cs
  let routed := routeData
    { e with keepSignals := e.keepSignals++committed.map keepInputData
             dataSignals := e.dataSignals++(committed.filter keepInputData).map isDataCommit
             dataCommits := e.dataCommits++committed.filter isDataCommit
             hitSignals := hits.drop fetched.length
             loopHeaders := e.loopHeaders++(committed.filter isLoopback).map loopHeader } data
  let entries := (committed.filter isMetaCommit).map (fun c => (c.entrySlotAddr,c.entry))
  ({ routed with mem := putEntries routed.mem entries },
    { replies := (committed.filter (fun c => !isLoopback c)).map (fun c => ⟨c.id,c.matched⟩)
      packets := ((fetched.zip hits).filter Prod.snd).map Prod.fst
      accesses := (cs.filter EntryCommand.needMatch).map (fun c => ⟨c.entry.ptr,c.fetchSize⟩)++
        (committed.filter isDataCommit).map (fun c => ⟨c.entry.ptr,c.kvSize⟩) })

def keyOf (data : List Byte) : Key := BitVec.ofNat 64 (leNat (data.take 8))

def lineStep (e : Engine) (b : BucketCommand) (data : List Byte) : Engine × Output :=
  let a := allocateAll A e.allocs (entryCommands (lineAt e.mem b.entryAddr.toNat) b (keyOf data))
  let mem := putEntries e.mem a.2.2
  settle { e with allocs := a.1, mem := mem } (a.2.1.map (fetchMatch mem (keyOf data))) data

def serve : ℕ → Engine → BucketCommand → List Byte → Engine × Output
  | 0, e, _, _ => (e,{})
  | n+1, e, b, data =>
      let (e,out) := lineStep A e b data
      match e.loopHeaders, e.loopData with
      | b::headers, data::datas =>
          let (e,rest) := serve n { e with loopHeaders := headers, loopData := datas } b data
          (e,out.append rest)
      | _, _ => (e,out)

structure Request where
  cmd : Command
  key : Key
  value : List Byte
  keySize : BitVec 4
  valueSize : BitVec 16
  id : BitVec 16
  deriving DecidableEq, Repr

def Request.data (r : Request) : List Byte := leBytes 8 r.key.toNat++r.value

def hashToAddress (hash : Hash) : BitVec 32 := hash.setWidth 32 <<< 6

variable (hash : Key → Hash)

def Request.bucketCommand (r : Request) : BucketCommand :=
  ⟨r.cmd,r.keySize,r.valueSize,r.id,hashToAddress (hash r.key)⟩

def handle (e : Engine) (r : Request) : Engine × Output :=
  serve A (e.allocs+1) e (r.bucketCommand hash) r.data

def boot (mem : ℕ → Byte) : Engine := ⟨mem,0,[],[],[],[],[],[]⟩

end

end Clio.KeyValueEngine
