import Clio.Memory
import Clio.VmArea

/-!
# Blocks for the key-value store

The SoC hands blocks of one kilobyte to the key-value store, from a counter that only grows. A
double request takes two.
-/

namespace Clio.KvsAlloc

open List Memory VmArea

inductive Cmd where
  | alloc
  | both
  deriving DecidableEq, Repr

structure LegoMemCtrl where
  param32 : ℕ
  param8 : ℕ
  addr : ℕ
  epid : ℕ
  deriving DecidableEq, Repr

def epidKvs : ℕ := 3

/-- The blocks a request takes. -/
def blocks : Cmd → ℕ
  | .alloc => 1
  | .both => 2

def demand (cmds : List Cmd) : ℕ := (cmds.map blocks).sum

lemma demand_append (cmds rest : List Cmd) : demand (cmds++rest) = demand cmds+demand rest := by
  simp [demand]

lemma demand_cons (cmd : Cmd) (cmds : List Cmd) :
    demand (cmd::cmds) = blocks cmd+demand cmds := by
  simp [demand]

lemma demand_replicate (n : ℕ) : demand (List.replicate n .alloc) = n := by
  simp [demand,blocks]

def Apart (size : ℕ) (a b : ℕ) : Prop := a+size ≤ b ∨ b+size ≤ a

section

def kvsVirtEntrySize : ℕ := 1024

def kvsVirtHashtableSize : ℕ := 4*1024*1024

def kvsVirtNrPages : ℕ := 64

def kvsVirtVaSize : ℕ := pageSize*kvsVirtNrPages

structure Virt where
  cachedIndex : ℕ
  sent : List LegoMemCtrl
  /-- The board software has called `exit`. -/
  exited : Bool
  deriving DecidableEq, Repr

def virtAddr (index : ℕ) : ℕ := (index*kvsVirtEntrySize+kvsVirtHashtableSize)%2^32

def sendVirt (s : Virt) (fifo : ℕ) : Virt :=
  { s with
    cachedIndex := s.cachedIndex+1
    sent := s.sent++[⟨virtAddr s.cachedIndex,0,fifo,epidKvs⟩] }

def sendBlocks (s : Virt) : Cmd → Virt
  | .alloc => sendVirt s 1
  | .both => sendVirt (sendVirt s 1) 0

def handleKvsAllocVirt (s : Virt) (cmd : Cmd) : Virt :=
  if s.exited then s
  else if virtAddr s.cachedIndex ≥ kvsVirtVaSize then
    { s with cachedIndex := s.cachedIndex+1, exited := true }
  else sendBlocks s cmd

def runVirt (cmds : List Cmd) : Virt := cmds.foldl handleKvsAllocVirt ⟨0,[],false⟩

/-- The blocks lie behind the hash table and in the area, and no two share a byte. -/
structure Inside (sent : List LegoMemCtrl) : Prop where
  range : ∀ tx ∈ sent, kvsVirtHashtableSize ≤ tx.param32 ∧
    tx.param32+kvsVirtEntrySize ≤ kvsVirtVaSize
  apart : (sent.map LegoMemCtrl.param32).Pairwise (Apart kvsVirtEntrySize)

def virtRoom : ℕ := 258048

variable {i : ℕ}

lemma virt_addr (h : i ≤ virtRoom+1) : virtAddr i = i*kvsVirtEntrySize+kvsVirtHashtableSize := by
  unfold virtAddr
  apply Nat.mod_eq_of_lt
  norm_num [virtRoom,kvsVirtEntrySize,kvsVirtHashtableSize] at *
  omega

lemma virt_addr_full (h : i ≤ virtRoom+1) : virtAddr i ≥ kvsVirtVaSize ↔ virtRoom ≤ i := by
  rw [virt_addr h]
  norm_num [virtRoom,kvsVirtEntrySize,kvsVirtHashtableSize,kvsVirtVaSize,kvsVirtNrPages,
    pageSize,pageShift]
  omega

structure Counted (s : Virt) : Prop where
  sent : s.sent.map LegoMemCtrl.param32 = (List.range s.sent.length).map virtAddr
  index : s.exited = false → s.cachedIndex = s.sent.length
  room : s.sent.length ≤ virtRoom+1

lemma send_virt_length (s : Virt) (fifo : ℕ) :
    (sendVirt s fifo).sent.length = s.sent.length+1 := by
  simp [sendVirt]

lemma send_virt_counted {s : Virt} (h : Counted s) (hopen : s.exited = false)
    (hroom : s.sent.length ≤ virtRoom) (fifo : ℕ) : Counted (sendVirt s fifo) := by
  have hindex := h.index hopen
  refine ⟨?_,fun _ => ?_,?_⟩
  · rw [send_virt_length,range_succ,map_append,← h.sent,← hindex]
    simp [sendVirt]
  · rw [send_virt_length,← hindex]
    rfl
  · rw [send_virt_length]
    omega

lemma handle_virt_cases {s : Virt} (h : Counted s) (cmd : Cmd) :
    (s.exited = true ∧ handleKvsAllocVirt s cmd = s) ∨
      (s.exited = false ∧ virtRoom ≤ s.sent.length ∧
        handleKvsAllocVirt s cmd = { s with cachedIndex := s.cachedIndex+1, exited := true }) ∨
      (s.exited = false ∧ s.sent.length < virtRoom ∧
        Counted (handleKvsAllocVirt s cmd) ∧ (handleKvsAllocVirt s cmd).exited = false ∧
        (handleKvsAllocVirt s cmd).sent.length = s.sent.length+blocks cmd) := by
  cases hexit : s.exited with
  | true => exact .inl ⟨rfl,by simp [handleKvsAllocVirt,hexit]⟩
  | false =>
    have hindex := h.index hexit
    have hfull := virt_addr_full (hindex ▸ h.room)
    right
    by_cases hroom : virtRoom ≤ s.sent.length
    · left
      refine ⟨rfl,hroom,?_⟩
      rw [handleKvsAllocVirt,if_neg (by simp [hexit]),if_pos (hfull.mpr (hindex ▸ hroom))]
    · right
      have hone := send_virt_counted h hexit (by omega) 1
      have heq : handleKvsAllocVirt s cmd = sendBlocks s cmd := by
        rw [handleKvsAllocVirt,if_neg (by simp [hexit]),
          if_neg (fun hge => hroom (hindex ▸ hfull.mp hge))]
      rw [heq]
      refine ⟨rfl,by omega,?_⟩
      cases cmd with
      | alloc => exact ⟨hone,hexit,send_virt_length s 1⟩
      | both =>
        refine ⟨send_virt_counted hone hexit ?_ 0,hexit,?_⟩
        · rw [send_virt_length]
          omega
        · rw [sendBlocks,send_virt_length,send_virt_length]
          rfl

lemma handle_virt_counted {s : Virt} (h : Counted s) (cmd : Cmd) :
    Counted (handleKvsAllocVirt s cmd) := by
  rcases handle_virt_cases h cmd with ⟨_,heq⟩ | ⟨_,_,heq⟩ | ⟨_,_,hcounted,_⟩
  · rw [heq]
    exact h
  · rw [heq]
    exact ⟨h.sent,fun hopen => absurd hopen (by simp),h.room⟩
  · exact hcounted

variable (cmds : List Cmd)

lemma run_virt_concat (cmd : Cmd) :
    runVirt (cmds++[cmd]) = handleKvsAllocVirt (runVirt cmds) cmd := by
  simp [runVirt]

/-- Until `exit` every request got its blocks. -/
structure Served (cmds : List Cmd) (s : Virt) : Prop where
  counted : Counted s
  served : s.exited = false → s.sent.length = demand cmds
  /-- The end is only passed by a double request at the last block. -/
  passed : s.sent.length = virtRoom+1 →
    ∃ pre post, cmds = pre++Cmd.both::post ∧ demand pre+1 = virtRoom

lemma run_virt_served : Served cmds (runVirt cmds) := by
  induction cmds using List.reverseRecOn with
  | nil => exact ⟨⟨rfl,fun _ => rfl,by simp [runVirt]⟩,fun _ => rfl,by simp [runVirt,virtRoom]⟩
  | append_singleton cmds cmd ih =>
    rw [run_virt_concat]
    have hpassed : (runVirt cmds).sent.length = virtRoom+1 →
        ∃ pre post, cmds++[cmd] = pre++Cmd.both::post ∧ demand pre+1 = virtRoom := by
      intro hlen
      obtain ⟨pre,post,heq,hpre⟩ := ih.passed hlen
      exact ⟨pre,post++[cmd],by simp [heq],hpre⟩
    refine ⟨handle_virt_counted ih.counted cmd,?_,?_⟩
    · rcases handle_virt_cases ih.counted cmd with ⟨hexit,heq⟩ | ⟨_,_,heq⟩ | ⟨hopen,_,_,_,hlen⟩
      · intro hopen
        rw [heq,hexit] at hopen
        cases hopen
      · intro hopen
        rw [heq] at hopen
        cases hopen
      · intro _
        rw [hlen,ih.served hopen,demand_append,demand_cons]
        rfl
    · rcases handle_virt_cases ih.counted cmd with ⟨_,heq⟩ | ⟨_,_,heq⟩ | ⟨hopen,hroom,_,_,hlen⟩
      · rw [heq]
        exact hpassed
      · rw [heq]
        exact hpassed
      · intro hend
        rw [hlen] at hend
        cases cmd with
        | alloc =>
          simp only [blocks] at hend
          omega
        | both =>
          simp only [blocks] at hend
          exact ⟨cmds,[],rfl,by rw [← ih.served hopen]; omega⟩

lemma run_virt_open (h : demand cmds ≤ virtRoom) : (runVirt cmds).exited = false := by
  induction cmds using List.reverseRecOn with
  | nil => rfl
  | append_singleton cmds cmd ih =>
    have hpos : 1 ≤ blocks cmd := by cases cmd <;> simp [blocks]
    rw [demand_append,demand_cons] at h
    have hopen := ih (by omega)
    have hs := run_virt_served cmds
    have hlen := hs.served hopen
    rw [run_virt_concat]
    rcases handle_virt_cases hs.counted cmd with ⟨hexit,_⟩ | ⟨_,hfull,_⟩ | ⟨_,_,_,hnext,_⟩
    · rw [hopen] at hexit
      cases hexit
    · omega
    · exact hnext

lemma run_virt_length_mono (rest : List Cmd) :
    (runVirt cmds).sent.length ≤ (runVirt (cmds++rest)).sent.length := by
  induction rest using List.reverseRecOn with
  | nil => simp
  | append_singleton rest cmd ih =>
    rw [← append_assoc,run_virt_concat]
    have hs := run_virt_served (cmds++rest)
    rcases handle_virt_cases hs.counted cmd with ⟨_,heq⟩ | ⟨_,_,heq⟩ | ⟨_,_,_,_,hlen⟩
    · rw [heq]
      exact ih
    · rw [heq]
      exact ih
    · omega

lemma run_virt_passes (pre post : List Cmd) (h : demand pre+1 = virtRoom) :
    virtRoom < (runVirt (pre++Cmd.both::post)).sent.length := by
  have hmono := run_virt_length_mono (pre++[Cmd.both]) post
  rw [append_assoc,singleton_append,run_virt_concat] at hmono
  have hs := run_virt_served pre
  have hopen := run_virt_open pre (by omega)
  have hlen := hs.served hopen
  rcases handle_virt_cases hs.counted .both with ⟨hexit,_⟩ | ⟨_,hfull,_⟩ | ⟨_,_,_,_,hboth⟩
  · rw [hopen] at hexit
    cases hexit
  · omega
  · rw [hboth] at hmono
    simp only [blocks] at hmono
    omega

lemma counted_param {s : Virt} (h : Counted s) (hi : i < s.sent.length) :
    ∃ tx ∈ s.sent, tx.param32 = virtAddr i := by
  have hmem : virtAddr i ∈ s.sent.map LegoMemCtrl.param32 := by
    rw [h.sent]
    exact mem_map_of_mem (mem_range.mpr hi)
  obtain ⟨tx,htx,heq⟩ := mem_map.mp hmem
  exact ⟨tx,htx,heq⟩

lemma counted_apart {s : Virt} (h : Counted s) :
    (s.sent.map LegoMemCtrl.param32).Pairwise (Apart kvsVirtEntrySize) := by
  rw [h.sent,pairwise_map]
  refine (pairwise_lt_range).imp_of_mem ?_
  intro i j hi hj hlt
  have hroom := h.room
  rw [mem_range] at hi hj
  rw [virt_addr (by omega),virt_addr (by omega)]
  left
  unfold kvsVirtEntrySize
  omega

lemma counted_inside {s : Virt} (h : Counted s) :
    Inside s.sent ↔ s.sent.length ≤ virtRoom := by
  constructor
  · intro hin
    by_contra hlen
    obtain ⟨tx,htx,heq⟩ := counted_param h (show virtRoom < s.sent.length by omega)
    have hrange := (hin.range tx htx).2
    rw [heq] at hrange
    have hfull := (virt_addr_full (show virtRoom ≤ virtRoom+1 by omega)).mpr le_rfl
    have hpos : 0 < kvsVirtEntrySize := by decide
    omega
  · intro hlen
    refine ⟨?_,counted_apart h⟩
    intro tx htx
    have hmem := mem_map_of_mem (f := LegoMemCtrl.param32) htx
    rw [h.sent] at hmem
    obtain ⟨i,hi,heq⟩ := mem_map.mp hmem
    rw [mem_range] at hi
    rw [← heq,virt_addr (by omega)]
    norm_num [virtRoom,kvsVirtEntrySize,kvsVirtHashtableSize,kvsVirtVaSize,kvsVirtNrPages,
      pageSize,pageShift] at *
    omega

/-- The blocks stay in the area exactly if no double request finds one block left. -/
theorem kvs_virt_inside_iff (cmds : List Cmd) :
    Inside (runVirt cmds).sent ↔
      ∀ pre post, cmds = pre++Cmd.both::post → demand pre+1 ≠ virtRoom := by
  have hs := run_virt_served cmds
  rw [counted_inside hs.counted]
  constructor
  · rintro hlen pre post rfl hpre
    have hpass := run_virt_passes pre post hpre
    omega
  · intro hnone
    by_contra hlen
    have hroom := hs.counted.room
    obtain ⟨pre,post,heq,hpre⟩ := hs.passed (by omega)
    exact hnone pre post heq hpre

/-- A double request after the last single block gets one behind the area. -/
theorem kvs_virt_past_end : ∃ tx ∈ (runVirt (List.replicate 258047 .alloc++[.both])).sent,
    tx.param32 = kvsVirtVaSize := by
  have hdemand : demand (List.replicate 258047 .alloc)+1 = virtRoom := by
    rw [demand_replicate]
    rfl
  have hs := run_virt_served (List.replicate 258047 .alloc++[.both])
  obtain ⟨tx,htx,heq⟩ := counted_param hs.counted (run_virt_passes _ [] hdemand)
  exact ⟨tx,htx,heq.trans (by decide)⟩

end

section

def kvsPhysHashtableSize : ℕ := 4*1024*1024

def kvsPhysEntrySize : ℕ := 1024

def fpgaMemoryMapDataStart : ℕ := 0x40000000

def fpgaMemoryMapDataEnd : ℕ := 0x80000000

def fpgaMemoryMapMappingBase : ℕ := 0x500000000

abbrev Mem := ℕ → BitVec 8

def clearWords : ℕ → ℕ → Mem → Mem
  | 0, _, mem => mem
  | nr+1, ptr, mem => clearWords nr (ptr+8) (store mem ptr (List.replicate 8 0))

def clearFpgaPage (mem : Mem) (page size : ℕ) : Mem := clearWords (size/8) page mem

structure Phys where
  cachedIndex : ℕ
  mem : Mem
  sent : List LegoMemCtrl

def physAddr (index : ℕ) : ℕ := (index*kvsPhysEntrySize+kvsPhysHashtableSize)%2^32

def sendPhys (s : Phys) (fifo : ℕ) : Phys :=
  { s with
    cachedIndex := s.cachedIndex+1
    sent := s.sent++[⟨physAddr s.cachedIndex,0,fifo,epidKvs⟩] }

def clearEntry (s : Phys) : Phys :=
  let va := fpgaMemoryMapDataStart+s.cachedIndex*kvsPhysEntrySize
  { s with mem := clearFpgaPage s.mem va kvsPhysEntrySize }

def handleKvsAllocPhys (s : Phys) : Cmd → Phys
  | .alloc => sendPhys s 1
  | .both => sendPhys (clearEntry (sendPhys s 1)) 0

def prepareKvsPhys (mem : Mem) : Phys :=
  ⟨0,clearFpgaPage mem fpgaMemoryMapDataStart kvsPhysHashtableSize,
    [⟨fpgaMemoryMapDataStart,5,0xff,epidKvs⟩]⟩

def baseAddr (tx : LegoMemCtrl) : ℕ := tx.param8*2^32+tx.param32-fpgaMemoryMapMappingBase

def kvsBase : ℕ := fpgaMemoryMapDataStart

lemma kvs_base_prepared (mem : Mem) : (prepareKvsPhys mem).sent.map baseAddr = [kvsBase] := by
  rfl

def runPhys (mem : Mem) (cmds : List Cmd) : Phys := cmds.foldl handleKvsAllocPhys ⟨0,mem,[]⟩

/-- What a request sends after those in `pre`, in the memory `now`. -/
def served (mem : Mem) (pre : List Cmd) (now : Mem) (cmd : Cmd) : Phys :=
  handleKvsAllocPhys { runPhys mem pre with mem := now, sent := [] } cmd

/-- The memory of the block that was sent. -/
def entry (now : Mem) (tx : LegoMemCtrl) : List (BitVec 8) :=
  load now (kvsBase+tx.param32) kvsPhysEntrySize

/-- The blocks are apart and behind the table, and clearing reaches nothing else. -/
structure Clears (mem : Mem) (cmds : List Cmd) : Prop where
  range : ∀ tx ∈ (runPhys mem cmds).sent, kvsPhysHashtableSize ≤ tx.param32 ∧
    kvsBase+tx.param32+kvsPhysEntrySize ≤ fpgaMemoryMapDataEnd
  apart : ((runPhys mem cmds).sent.map LegoMemCtrl.param32).Pairwise (Apart kvsPhysEntrySize)
  cleared : ∀ pre cmd post, cmds = pre++cmd::post → ∀ now,
    ∀ tx ∈ (served mem pre now cmd).sent, tx.addr = 0 →
      entry (served mem pre now cmd).mem tx = List.replicate kvsPhysEntrySize 0
  hashtable : ∀ pre cmd post, cmds = pre++cmd::post → ∀ now,
    load (served mem pre now cmd).mem kvsBase kvsPhysHashtableSize =
      load now kvsBase kvsPhysHashtableSize
  earlier : ∀ pre cmd post, cmds = pre++cmd::post → ∀ now, ∀ tx ∈ (runPhys mem pre).sent,
    entry (served mem pre now cmd).mem tx = entry now tx

variable {mem : Mem} {cmds : List Cmd}

lemma clear_words_apart (nr ptr : ℕ) (mem : Mem) {x : ℕ} (h : x < ptr ∨ ptr+nr*8 ≤ x) :
    clearWords nr ptr mem x = mem x := by
  induction nr generalizing ptr mem with
  | zero => rfl
  | succ nr ih =>
    rw [clearWords,ih (ptr+8) _ (by omega)]
    exact dif_neg (by simp only [length_replicate]; omega)

lemma clear_words_inside (nr ptr : ℕ) (mem : Mem) {x : ℕ} (h : ptr ≤ x ∧ x < ptr+nr*8) :
    clearWords nr ptr mem x = 0 := by
  induction nr generalizing ptr mem with
  | zero => omega
  | succ nr ih =>
    rw [clearWords]
    by_cases hx : ptr+8 ≤ x
    · exact ih (ptr+8) _ (by omega)
    · rw [clear_words_apart nr (ptr+8) _ (by omega),store,
        dif_pos (by rw [length_replicate]; omega)]
      exact eq_of_mem_replicate (get_mem _ _)

lemma run_phys_concat (cmd : Cmd) :
    runPhys mem (cmds++[cmd]) = handleKvsAllocPhys (runPhys mem cmds) cmd := by
  simp [runPhys]

lemma run_phys_sent (mem : Mem) (cmds : List Cmd) :
    (runPhys mem cmds).cachedIndex = demand cmds ∧ (runPhys mem cmds).sent.map LegoMemCtrl.param32 =
        (List.range (demand cmds)).map physAddr := by
  induction cmds using List.reverseRecOn with
  | nil => exact ⟨rfl,rfl⟩
  | append_singleton cmds cmd ih =>
    obtain ⟨hindex,hsent⟩ := ih
    rw [run_phys_concat,demand_append,demand_cons]
    cases cmd with
    | alloc =>
      simp [handleKvsAllocPhys,sendPhys,hindex,hsent,demand,blocks,range_succ]
    | both =>
      simp [handleKvsAllocPhys,sendPhys,clearEntry,hindex,hsent,demand,blocks, range_succ]

variable {i : ℕ}

lemma phys_addr
    (h : i*kvsPhysEntrySize+kvsPhysHashtableSize ≤ fpgaMemoryMapDataEnd-fpgaMemoryMapDataStart) :
    physAddr i = i*kvsPhysEntrySize+kvsPhysHashtableSize := by
  apply Nat.mod_eq_of_lt
  have hend : fpgaMemoryMapDataEnd-fpgaMemoryMapDataStart < 2^32 := by decide
  omega

lemma run_phys_apart (mem : Mem) (hroom : demand cmds*kvsPhysEntrySize+kvsPhysHashtableSize ≤
      fpgaMemoryMapDataEnd-fpgaMemoryMapDataStart) :
    (∀ tx ∈ (runPhys mem cmds).sent, kvsPhysHashtableSize ≤ tx.param32 ∧
        kvsBase+tx.param32+kvsPhysEntrySize ≤ fpgaMemoryMapDataEnd) ∧
      ((runPhys mem cmds).sent.map LegoMemCtrl.param32).Pairwise (Apart kvsPhysEntrySize) := by
  obtain ⟨-,hsent⟩ := run_phys_sent mem cmds
  have haddr : ∀ i < demand cmds, physAddr i = i*kvsPhysEntrySize+kvsPhysHashtableSize := by
    intro i hi
    have hmul := Nat.mul_le_mul_right kvsPhysEntrySize hi.le
    exact phys_addr (by omega)
  constructor
  · intro tx htx
    have hmem := mem_map_of_mem (f := LegoMemCtrl.param32) htx
    rw [hsent] at hmem
    obtain ⟨i,hi,heq⟩ := mem_map.mp hmem
    rw [mem_range] at hi
    rw [← heq,haddr i hi]
    have hmul := Nat.mul_le_mul_right kvsPhysEntrySize (show i+1 ≤ demand cmds from hi)
    rw [Nat.add_mul,Nat.one_mul] at hmul
    have hstart : fpgaMemoryMapDataStart ≤ fpgaMemoryMapDataEnd := by decide
    unfold kvsBase
    omega
  · rw [hsent,pairwise_map]
    refine pairwise_lt_range.imp_of_mem ?_
    intro i j hi hj hlt
    rw [mem_range] at hi hj
    rw [haddr i hi,haddr j hj]
    left
    have hmul := Nat.mul_le_mul_right kvsPhysEntrySize (show i+1 ≤ j from hlt)
    rw [Nat.add_mul,Nat.one_mul] at hmul
    omega

lemma both_not_cleared (mem : Mem) (pre post : List Cmd)
    (hroom : demand (pre++Cmd.both::post)*kvsPhysEntrySize+kvsPhysHashtableSize ≤
      fpgaMemoryMapDataEnd-fpgaMemoryMapDataStart) (now : Mem) :
    ∃ tx ∈ (served mem pre now .both).sent, tx.addr = 0 ∧
      tx.param32 = (demand pre+1)*kvsPhysEntrySize+kvsPhysHashtableSize ∧
      (served mem pre now .both).mem (kvsBase+tx.param32) = now (kvsBase+tx.param32) := by
  obtain ⟨hindex,-⟩ := run_phys_sent mem pre
  have haddr : physAddr (demand pre+1) = (demand pre+1)*kvsPhysEntrySize+kvsPhysHashtableSize := by
    rw [demand_append,demand_cons] at hroom
    have hmul := Nat.mul_le_mul_right kvsPhysEntrySize
      (show demand pre+1 ≤ demand pre+(blocks .both+demand post) by simp only [blocks]; omega)
    exact phys_addr (by omega)
  refine ⟨⟨physAddr (demand pre+1),0,0,epidKvs⟩,?_,rfl,haddr,?_⟩
  · simp [served,handleKvsAllocPhys,sendPhys,clearEntry,hindex]
  · rw [haddr]
    simp only [served,handleKvsAllocPhys,sendPhys,clearEntry,hindex,clearFpgaPage]
    apply clear_words_apart
    right
    norm_num [kvsBase,kvsPhysEntrySize,kvsPhysHashtableSize]
    omega

/-- What is handed out is cleared exactly as long as nothing has to be cleared. -/
theorem kvs_phys_clears_iff (mem : Mem) (cmds : List Cmd)
    (hroom : demand cmds*kvsPhysEntrySize+kvsPhysHashtableSize ≤
      fpgaMemoryMapDataEnd-fpgaMemoryMapDataStart) :
    Clears mem cmds ↔ Cmd.both ∉ cmds := by
  constructor
  · intro h hboth
    obtain ⟨pre,post,rfl⟩ := append_of_mem hboth
    obtain ⟨tx,htx,haddr,-,hkept⟩ := both_not_cleared mem pre post hroom fun _ => 1
    have hzero := h.cleared pre .both post rfl (fun _ => 1) tx htx haddr
    have hfirst : (1 : BitVec 8) ∈ entry (served mem pre (fun _ => 1) .both).mem tx :=
      mem_map.mpr ⟨0,mem_range.mpr (by decide),hkept⟩
    rw [hzero] at hfirst
    exact absurd (eq_of_mem_replicate hfirst) (by decide)
  · intro hnone
    obtain ⟨hrange,hapart⟩ := run_phys_apart mem hroom
    have halloc : ∀ pre cmd post, cmds = pre++cmd::post → cmd = .alloc := by
      rintro pre cmd post rfl
      cases cmd with
      | alloc => rfl
      | both => simp at hnone
    refine ⟨hrange,hapart,?_,?_,?_⟩
    · intro pre cmd post heq now tx htx haddr
      rw [halloc pre cmd post heq] at htx
      simp [served,handleKvsAllocPhys,sendPhys] at htx
      rw [htx] at haddr
      cases haddr
    · intro pre cmd post heq now
      rw [halloc pre cmd post heq]
      rfl
    · intro pre cmd post heq now tx htx
      rw [halloc pre cmd post heq]
      rfl

theorem kvs_phys_clears_singles : Clears (fun _ => 1) [.alloc,.alloc] :=
  (kvs_phys_clears_iff (fun _ => 1) [.alloc,.alloc] (by decide)).mpr (by decide)

/-- The first double request clears a part of the hash table and not its block. -/
theorem kvs_phys_hashtable_cleared :
    let s := served (fun _ => 1) [] (fun _ => 1) .both
    (∃ tx ∈ s.sent, tx.addr = 0 ∧ s.mem (kvsBase+tx.param32) = 1) ∧
      s.mem (kvsBase+kvsPhysEntrySize) = 0 := by
  refine ⟨?_,?_⟩
  · obtain ⟨tx,htx,haddr,-,hkept⟩ :=
      both_not_cleared (fun _ => 1) [] [] (by decide) fun _ => 1
    exact ⟨tx,htx,haddr,hkept⟩
  · simp only [served,runPhys,foldl_nil,handleKvsAllocPhys,sendPhys,clearEntry,
      clearFpgaPage]
    exact clear_words_inside _ _ _ (by decide)

end

end Clio.KvsAlloc
