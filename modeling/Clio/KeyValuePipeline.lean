import Clio.KeyValueRun
import Clio.WritePool

/-!
# Writes in flight together

The line of a write is fetched long before it is written, with other writes in between.
-/

namespace Clio.KeyValuePipeline

open List

open Function UnackedBuffer Memory Machine WritePool KeyValueEngine KeyValueLine KeyValueChain
open KeyValueStore KeyValueRun

inductive Port where
  | nextLink
  | data
  | pointer
  deriving DecidableEq, Repr

structure Write where
  owner : ℕ
  port : Port
  address : ℕ
  cells : List Byte
  deriving DecidableEq, Repr

inductive Stage where
  | waiting
  | issued (entryAddr : BitVec 32)
  | fetched (c : EntryCommand)
  | answered (reply : KeyValueReply)
  deriving DecidableEq, Repr

structure Pipeline where
  mem : ℕ → Byte
  allocs : ℕ
  stage : ℕ → Stage
  writes : List Write

inductive Action where
  | issue (j : ℕ)
  | fetch (j : ℕ)
  | loopback (j : ℕ)
  | allocate (j : ℕ)
  | commit (j : ℕ) (port : Port)
  deriving DecidableEq, Repr

variable (A : Allocator) (hash : Key → Hash) (ws : List Request)

def putWrite (j : ℕ) (port : Port) (address : BitVec 32) (entry : KeyValueHashEntry) : Write :=
  ⟨j,port,address.toNat,leBytes 8 entry.asFull⟩

def writesOf (j : ℕ) (r : Request) (a : Allocated) : List Write :=
  a.link.toList.map (fun p => putWrite j .nextLink p.1 p.2)++
    [⟨j,.data,a.command.entry.ptr.toNat,r.data.take a.command.kvSize.toNat⟩,
      putWrite j .pointer a.command.entrySlotAddr a.command.entry]

def fetchedCommand (mem : ℕ → Byte) (r : Request) (addr : BitVec 32) : EntryCommand :=
  entryCommand (lineAt mem addr.toNat) { r.bucketCommand hash with entryAddr := addr }
    (keyOf r.data) (none,true)

def step (s : Pipeline) : Action → Option Pipeline
  | .issue j =>
      match ws[j]?, s.stage j with
      | some r, .waiting =>
          some { s with stage := update s.stage j (.issued (hashToAddress (hash r.key))) }
      | _, _ => none
  | .fetch j =>
      match ws[j]?, s.stage j with
      | some r, .issued addr =>
          some { s with stage := update s.stage j
                          (.fetched (fetchedCommand hash s.mem r addr)) }
      | _, _ => none
  | .loopback j =>
      match ws[j]?, s.stage j with
      | some _, .fetched c =>
          if c.loopback then
            some { s with stage := update s.stage j (.issued c.linkAddr) }
          else none
      | _, _ => none
  | .allocate j =>
      match ws[j]?, s.stage j with
      | some r, .fetched c =>
          if c.loopback then none
          else
            let a := allocate A s.allocs c
            some { s with allocs := a.allocs
                          stage := update s.stage j (.answered ⟨c.id,a.command.matched⟩)
                          writes := s.writes++writesOf j r a }
      | _, _ => none
  | .commit j port =>
      match s.writes.find? (fun w => w.owner = j ∧ w.port = port) with
      | some w => some { s with mem := store s.mem w.address w.cells, writes := s.writes.erase w }
      | none => none

def start (mem : ℕ → Byte) : Pipeline := ⟨mem,0,fun _ => .waiting,[]⟩

def Stage.active : Stage → Bool
  | .issued _ => true
  | .fetched _ => true
  | _ => false

def inFlight (s : Pipeline) (j : ℕ) : Bool :=
  (s.stage j).active || s.writes.any (fun w => w.owner = j)

/-- No other write of the hash is in flight, and the allocator has blocks. -/
def apartInTime (s : Pipeline) : Action → Bool
  | .issue j => (List.range ws.length).all (fun i => i = j || !inFlight s i ||
      (ws[i]?.map (fun r => hash r.key)) ≠ (ws[j]?.map (fun r => hash r.key)))
  | .allocate j => ws[j]?.all (fun r => Granted A (idle s.mem s.allocs) r)
  | _ => true

def range (w : Write) : ℕ × List Byte := (w.address,w.cells)

def landed (s : Pipeline) : ℕ → Byte := storeAll range s.mem s.writes

def InRegion (mem : ℕ → Byte) (n : ℕ) (chain : Chains) (h : Hash) (w : Write) : Prop :=
  (∃ b ∈ chain h, b ≤ w.address ∧ w.address+w.cells.length ≤ b+64) ∨
  ∃ m < n, Entered A mem chain h m ∧ (A.block m).toNat ≤ w.address ∧
    w.address+w.cells.length ≤ (A.block m).toNat+A.room m

section

variable {A hash} {mem : ℕ → Byte} {n : ℕ} {chain : Chains} {blocks : Key → Option ℕ}

lemma region_line (hs : Shape A mem n chain) (g h : Hash) (hne : g ≠ h) (w : Write)
    (hw : InRegion A mem n chain g w) (b : ℕ) (hb : b ∈ chain h) :
    w.address+w.cells.length ≤ b ∨ b+64 ≤ w.address := by
  have hcount := hs.count
  rcases hw with ⟨c,hc,hlo,hhi⟩ | ⟨m,hm,hent,hlo,hhi⟩
  · have hcb : c ≠ b := by
      rintro rfl
      exact hne (hs.apart g h c hc hb)
    have := hs.bucket_apart g h c b hc hb hcb
    omega
  · have := hs.value_apart m (by omega) (hent.out hs) h b hb
    omega

lemma regions_apart (hst : Stored A hash mem n chain blocks) (g h : Hash) (hne : g ≠ h)
    (w v : Write) (hw : InRegion A mem n chain g w) (hv : InRegion A mem n chain h v) :
    Apart (range w) (range v) := by
  have hs := hst.shape
  have hcount := hs.count
  change w.address+w.cells.length ≤ v.address ∨ v.address+v.cells.length ≤ w.address
  rcases hv with ⟨b,hb,hlo,hhi⟩ | ⟨m,hm,hent,hlo,hhi⟩
  · have := region_line hs g h hne w hw b hb
    omega
  · rcases hw with ⟨c,hc,hlo',hhi'⟩ | ⟨l,hl,hent',hlo',hhi'⟩
    · have := hs.value_apart m (by omega) (hent.out hs) g c hc
      omega
    · -- one block is entered once, so under one hash
      have hlm : l ≠ m := by
        rintro rfl
        obtain ⟨b,hb,i,hi,hvb,hpb⟩ := hent
        obtain ⟨c,hc,j,hj,hvc,hpc⟩ := hent'
        obtain ⟨hbc,-⟩ := hst.single h g b c i j hb hc hi hj hvb hvc (hpb.trans hpc.symm)
        subst hbc
        exact hne (hs.apart g h b hc hb)
      have := A.apart l (by omega) m (by omega) hlm
      omega

lemma region_mono {r : Request} {mem' : ℕ → Byte} {n' : ℕ} {chain' : Chains}
    (hcount : n ≤ A.count) (hins : Inserted A hash mem n chain r mem' n' chain') (h : Hash)
    (w : Write) (hw : InRegion A mem n chain h w) : InRegion A mem' n' chain' h w := by
  have hgrown := hins.grown.1
  rcases hw with ⟨b,hb,hlo,hhi⟩ | ⟨m,hm,hent,hlo,hhi⟩
  · exact .inl ⟨b,hins.lines h b hb,hlo,hhi⟩
  · exact .inr ⟨m,by omega,(hins.entered h m (by omega)).mpr (.inl hent),hlo,hhi⟩

lemma linked_last (l : List ℕ) (hl : Linked mem l) (b : ℕ) (hb : b ∈ l)
    (hv : (entryAt mem b 7).valid = false) : ∃ pre, l = pre++[b] := by
  induction l using Linked.induct with
  | case1 => cases hb
  | case2 c => exact ⟨[],by rw [mem_singleton.mp hb]; rfl⟩
  | case3 c d l ih =>
    obtain ⟨hvc,-,hrest⟩ := hl
    rcases mem_cons.mp hb with rfl | hb
    · rw [hv] at hvc
      cases hvc
    · obtain ⟨pre,hpre⟩ := ih hrest hb
      exact ⟨c::pre,by rw [hpre]; rfl⟩

lemma linked_next (l : List ℕ) (hl : Linked mem l) (b : ℕ) (hb : b ∈ l)
    (hv : (entryAt mem b 7).valid = true) : (entryAt mem b 7).ptr.toNat ∈ l := by
  induction l using Linked.induct with
  | case1 => cases hb
  | case2 c =>
    rw [mem_singleton.mp hb] at hv
    have hlast : (entryAt mem c 7).valid = false := hl
    rw [hlast] at hv
    cases hv
  | case3 c d l ih =>
    obtain ⟨-,hpc,hrest⟩ := hl
    rcases mem_cons.mp hb with rfl | hb
    · rw [hpc]
      simp
    · exact mem_cons_of_mem _ (ih hrest hb)

lemma fetched_congr (mem' : ℕ → Byte) (r : Request) (addr : BitVec 32)
    (h : ∀ i < 8, entryAt mem' addr.toNat i = entryAt mem addr.toNat i) :
    fetchedCommand hash mem' r addr = fetchedCommand hash mem r addr := by
  have hfree : freeSlot (entryAt mem' addr.toNat) = freeSlot (entryAt mem addr.toNat) := by
    unfold freeSlot
    apply List.find?_congr
    intro i hi
    have hi7 := mem_range.mp hi
    rw [h i (by omega)]
  simp only [fetchedCommand,entryCommand,hfree,lineAt,h 7 (by omega),Option.getD_none,
    h 0 (by omega)]

end

section

variable {A hash} {mem : ℕ → Byte} {n : ℕ} {chain : Chains}

structure Sent (mem : ℕ → Byte) (n : ℕ) (chain : Chains) (j : ℕ) (r : Request) (a : Allocated)
    (chain' : Chains) : Prop where
  inserted : Inserted A hash mem n chain r (storeAll range mem (writesOf j r a)) a.allocs chain'
  apart : (writesOf j r a).Pairwise (fun x y => Apart (range x) (range y))
  region : ∀ w ∈ writesOf j r a, w.owner = j ∧
    InRegion A (storeAll range mem (writesOf j r a)) a.allocs chain' (hash r.key) w

section

variable (r : Request) (hr : r.cmd = .write) (addr : BitVec 32) (j : ℕ)
include hr

lemma allocated_free (i : ℕ) (hfree : freeSlot (lineAt mem addr.toNat) = some i) :
    (allocate A n (fetchedCommand hash mem r addr)).allocs = n+1 ∧
    writesOf j r (allocate A n (fetchedCommand hash mem r addr)) =
      [⟨j,.data,(A.block n).toNat,r.data.take (r.valueSize+8).toNat⟩,
        putWrite j .pointer (addr+BitVec.ofNat 32 (i*8))
          (newEntry (r.bucketCommand hash) r.data (A.block n))] := by
  have hcmd : (r.bucketCommand hash).cmd = .write := hr
  have halloc : allocate A n (fetchedCommand hash mem r addr) =
      ⟨n+1,{ fetchedCommand hash mem r addr with
              matched := true, entry := newEntry (r.bucketCommand hash) r.data (A.block n) },
        none⟩ := by
    simp [allocate,fetchedCommand,entryCommand,EntryCommand.is,EntryCommand.loopback,hcmd,
      hfree,newEntry]
  rw [halloc]
  refine ⟨rfl,?_⟩
  simp only [writesOf,EntryCommand.entrySlotAddr,EntryCommand.kvSize,fetchedCommand,
    entryCommand,hcmd,hfree,if_true,Option.getD_some,Option.toList_none,map_nil,
    nil_append]
  rfl

lemma allocated_append (hfree : freeSlot (lineAt mem addr.toNat) = none)
    (hlast : (entryAt mem addr.toNat 7).valid = false) :
    (allocate A n (fetchedCommand hash mem r addr)).allocs = n+2 ∧
    writesOf j r (allocate A n (fetchedCommand hash mem r addr)) =
      [putWrite j .nextLink (addr+56) (linkEntry (A.block (n+1))),
        ⟨j,.data,(A.block n).toNat,r.data.take (r.valueSize+8).toNat⟩,
        putWrite j .pointer (A.block (n+1))
          (newEntry (r.bucketCommand hash) r.data (A.block n))] := by
  have hcmd : (r.bucketCommand hash).cmd = .write := hr
  have hline : (lineAt mem addr.toNat 7).valid = false := hlast
  have hfirst : A.block (n+1)+BitVec.ofNat 32 (0*8) = A.block (n+1) := by simp
  have halloc : allocate A n (fetchedCommand hash mem r addr) =
      ⟨n+2,{ fetchedCommand hash mem r addr with
              linkAddr := A.block (n+1), entryAddr := A.block (n+1), matched := true
              entry := newEntry (r.bucketCommand hash) r.data (A.block n) },
        some (addr+56,linkEntry (A.block (n+1)))⟩ := by
    simp [allocate,fetchedCommand,entryCommand,EntryCommand.is,EntryCommand.loopback,hcmd,
      hfree,hline,newEntry]
  rw [halloc]
  refine ⟨rfl,?_⟩
  simp only [writesOf,EntryCommand.entrySlotAddr,EntryCommand.kvSize,fetchedCommand,
    entryCommand,hcmd,hfree,if_true,Option.getD_none,Option.toList_some,map_cons,
    map_nil,singleton_append,hfirst]
  rfl

lemma line_last (hfree : freeSlot (lineAt mem addr.toNat) = none)
    (hstay : (fetchedCommand hash mem r addr).loopback = false) :
    (entryAt mem addr.toNat 7).valid = false := by
  have hcmd : (r.bucketCommand hash).cmd = .write := hr
  change (lineAt mem addr.toNat 7).valid = false
  simpa [fetchedCommand,EntryCommand.loopback,EntryCommand.is,entryCommand,hcmd,hfree]
    using hstay

end

lemma data_length (r : Request) (n : ℕ) (hroom : r.valueSize.toNat+8 ≤ A.room n) :
    (r.data.take (r.valueSize.toNat+8)).length ≤ A.room n := by
  rw [length_take]
  omega

lemma sent_free (hs : Shape A mem n chain) (r : Request) (hr : r.cmd = .write)
    (hn : n+1 < A.count) (hsize : r.valueSize.toNat+8 < 2^16)
    (hroom : r.valueSize.toNat+8 ≤ A.room n) (addr : BitVec 32)
    (hmem : addr.toNat ∈ chain (hash r.key)) (i : ℕ)
    (hfree : freeSlot (lineAt mem addr.toNat) = some i) (j : ℕ) :
    @Sent A hash mem n chain j r (allocate A n (fetchedCommand hash mem r addr)) chain := by
  obtain ⟨hi,-⟩ := free_slot_spec _ i hfree
  obtain ⟨hallocs,hwrites⟩ := @allocated_free A hash mem n r hr addr j i hfree
  rw [putWrite,slot_address addr i (hs.bucket_end _ _ hmem) (by omega),kv_size _ hsize] at hwrites
  let e := newEntry (r.bucketCommand hash) r.data (A.block n)
  have hins := inserted_free hs r (by omega) hroom addr i hmem hfree e rfl rfl
    (by rw [show e.check = (keyOf r.data).setWidth 8 from rfl,key_of_data])
  have hlanded : storeAll range mem (writesOf j r (allocate A n (fetchedCommand hash mem r addr))) =
      putEntry (store mem (A.block n).toNat (r.data.take (r.valueSize.toNat+8)))
        (addr.toNat+8*i) e := by
    rw [hwrites]
    rfl
  have hlen := data_length r n hroom
  constructor
  · rw [hlanded,hallocs]
    exact hins
  · rw [hwrites]
    have := hs.value_apart n (by omega) (hs.fresh_out n (by omega) (Nat.le_refl n)) _ _ hmem
    simp only [pairwise_cons,mem_singleton,forall_eq,not_mem_nil,
      false_imp_iff,implies_true,List.Pairwise.nil,and_true]
    simp only [Apart,range,length_le_bytes]
    omega
  · rw [hlanded,hwrites,hallocs]
    intro w hw
    rcases mem_cons.mp hw with rfl | hw
    · exact ⟨rfl,.inr ⟨n,by simp,(hins.entered _ n (by omega)).mpr (.inr ⟨rfl,rfl⟩),
        Nat.le_refl _,by simpa using hlen⟩⟩
    · rw [mem_singleton.mp hw]
      refine ⟨rfl,.inl ⟨addr.toNat,hmem,?_⟩⟩
      simp only [length_le_bytes]
      omega

section

variable (hs : Shape A mem n chain) (r : Request) (hr : r.cmd = .write) (hn : n+1 < A.count)
  (hzero : ∀ i < 8, (entryAt mem (A.block (n+1)).toNat i).valid = false)
  (hsize : r.valueSize.toNat+8 < 2^16) (hroom : r.valueSize.toNat+8 ≤ A.room n) (addr : BitVec 32)
  (hmem : addr.toNat ∈ chain (hash r.key))
include hs r hr hn hzero hsize hroom addr hmem

lemma sent_append (hfree : freeSlot (lineAt mem addr.toNat) = none)
    (hlast : (entryAt mem addr.toNat 7).valid = false) (j : ℕ) :
    @Sent A hash mem n chain j r (allocate A n (fetchedCommand hash mem r addr))
      (update chain (hash r.key)
        (chain (hash r.key)++[(A.block (n+1)).toNat])) := by
  obtain ⟨pre,hpre⟩ := linked_last _ (hs.linked _) _ hmem hlast
  have hslot : (addr+56).toNat = addr.toNat+8*7 :=
    slot_address addr 7 (hs.bucket_end _ _ hmem) (by omega)
  obtain ⟨hallocs,hwrites⟩ := @allocated_append A hash mem n r hr addr j hfree hlast
  rw [putWrite,putWrite,hslot,kv_size _ hsize] at hwrites
  let e := newEntry (r.bucketCommand hash) r.data (A.block n)
  have hins := inserted_append hs r hn hzero hroom pre addr.toNat hpre e rfl rfl
    (by rw [show e.check = (keyOf r.data).setWidth 8 from rfl,key_of_data])
  have hlanded : storeAll range mem (writesOf j r (allocate A n (fetchedCommand hash mem r addr))) =
      putEntry (store (putEntry mem (addr.toNat+8*7) (linkEntry (A.block (n+1)))) (A.block n).toNat
        (r.data.take (r.valueSize.toNat+8))) (A.block (n+1)).toNat e := by
    rw [hwrites]
    rfl
  have hlen := data_length r n hroom
  have hnew : (A.block (n+1)).toNat ∈ update chain (hash r.key)
      (chain (hash r.key)++[(A.block (n+1)).toNat]) (hash r.key) := by
    rw [update_self]
    simp
  constructor
  · rw [hlanded,hallocs]
    exact hins
  · rw [hwrites]
    have hvalue := hs.value_apart n (by omega) (hs.fresh_out n (by omega) (Nat.le_refl n)) _ _ hmem
    have hline := hs.value_apart (n+1) hn (hs.fresh_out (n+1) hn (by omega)) _ _ hmem
    have hblocks := A.apart n (by omega) (n+1) hn (by omega)
    have := A.line_le (n+1) hn
    simp only [pairwise_cons,mem_cons,not_mem_nil,or_false,
      forall_eq_or_imp,forall_eq,false_imp_iff,implies_true,List.Pairwise.nil,and_true]
    simp only [Apart,range,length_le_bytes]
    omega
  · rw [hlanded,hwrites,hallocs]
    intro w hw
    have := A.line_le (n+1) hn
    rcases mem_cons.mp hw with rfl | hw
    · refine ⟨rfl,.inl ⟨addr.toNat,hins.lines _ _ hmem,?_⟩⟩
      simp only [length_le_bytes]
      omega
    · rcases mem_cons.mp hw with rfl | hw
      · exact ⟨rfl,.inr ⟨n,by simp,(hins.entered _ n (by omega)).mpr (.inr ⟨rfl,rfl⟩),
          Nat.le_refl _,by simpa using hlen⟩⟩
      · rw [mem_singleton.mp hw]
        refine ⟨rfl,.inl ⟨(A.block (n+1)).toNat,hnew,?_⟩⟩
        simp only [length_le_bytes]
        omega

lemma sent (j : ℕ) (hstay : (fetchedCommand hash mem r addr).loopback = false) :
    ∃ chain',
      @Sent A hash mem n chain j r (allocate A n (fetchedCommand hash mem r addr)) chain' := by
  cases hfree : freeSlot (lineAt mem addr.toNat) with
  | some i => exact ⟨_,sent_free hs r hr hn hsize hroom addr hmem i hfree j⟩
  | none =>
    have hlast := line_last r hr addr hfree hstay
    exact ⟨_,sent_append hs r hr hn hzero hsize hroom addr hmem hfree hlast j⟩

end

end

section

def StageOk (mem : ℕ → Byte) (chain : Chains) (values : Values) (writes : List Write) (j : ℕ)
    (r : Request) : Stage → Prop
  | .waiting => values r.key = none ∧ ∀ w ∈ writes, w.owner ≠ j
  | .issued addr => values r.key = none ∧ (∀ w ∈ writes, w.owner ≠ j) ∧
      addr.toNat ∈ chain (hash r.key)
  | .fetched c => values r.key = none ∧ (∀ w ∈ writes, w.owner ≠ j) ∧
      ∃ addr : BitVec 32, addr.toNat ∈ chain (hash r.key) ∧ c = fetchedCommand hash mem r addr
  | .answered _ => values r.key = some r.value

structure Inv (s : Pipeline) (chain : Chains) (blocks : Key → Option ℕ) (values : Values) :
    Prop where
  represents : Represents A hash (landed s) s.allocs chain blocks values
  apart : s.writes.Pairwise (fun x y => Apart (range x) (range y))
  region : ∀ w ∈ s.writes, ∃ r, ws[w.owner]? = some r ∧
    InRegion A (landed s) s.allocs chain (hash r.key) w
  alone : ∀ i j r t, ws[i]? = some r → ws[j]? = some t → i ≠ j → inFlight s i = true →
    inFlight s j = true → hash r.key ≠ hash t.key
  stage : ∀ j r, ws[j]? = some r →
    StageOk hash (landed s) chain values s.writes j r (s.stage j)

variable {A hash ws} {s : Pipeline} {chain : Chains} {blocks : Key → Option ℕ} {values : Values}

lemma in_flight_owner (w : Write) (hw : w ∈ s.writes) : inFlight s w.owner = true := by
  rw [inFlight,Bool.or_eq_true]
  exact .inr (any_eq_true.mpr ⟨w,hw,by simp⟩)

lemma in_flight_active (j : ℕ) (h : (s.stage j).active = true) : inFlight s j = true := by
  rw [inFlight,h]
  rfl

lemma in_flight_mono {u : Pipeline} (i : ℕ)
    (hstage : (u.stage i).active = true → inFlight s i = true)
    (hwrites : ∀ w ∈ u.writes, w.owner = i → inFlight s i = true) (h : inFlight u i = true) :
    inFlight s i = true := by
  rw [inFlight,Bool.or_eq_true] at h
  rcases h with h | h
  · exact hstage h
  · obtain ⟨w,hw,howner⟩ := any_eq_true.mp h
    exact hwrites w hw (by simpa using howner)

lemma StageOk.keep {mem mem' : ℕ → Byte} {chain' : Chains} {values' : Values}
    {writes writes' : List Write} {j : ℕ} {r : Request} {stage : Stage}
    (h : StageOk hash mem chain values writes j r stage) (hvalue : values' r.key = values r.key)
    (hwrites : (∀ w ∈ writes, w.owner ≠ j) → ∀ w ∈ writes', w.owner ≠ j)
    (hlines : ∀ c ∈ chain (hash r.key), c ∈ chain' (hash r.key))
    (hentries : stage.active = true → ∀ c ∈ chain (hash r.key), ∀ i < 8,
      entryAt mem' c i = entryAt mem c i) :
    StageOk hash mem' chain' values' writes' j r stage := by
  cases stage with
  | waiting => exact ⟨hvalue.trans h.1,hwrites h.2⟩
  | issued addr =>
    obtain ⟨hnone,hno,hmem⟩ := h
    exact ⟨hvalue.trans hnone,hwrites hno,hlines _ hmem⟩
  | fetched c =>
    obtain ⟨hnone,hno,addr,hmem,hc⟩ := h
    refine ⟨hvalue.trans hnone,hwrites hno,addr,hlines _ hmem,?_⟩
    rw [hc]
    exact (fetched_congr mem' r addr (fun i hi => hentries rfl _ hmem i hi)).symm
  | answered reply => exact hvalue.trans h

lemma key_ne (hkeys : (ws.map Request.key).Nodup) {i j : ℕ} {t r : Request}
    (hi : ws[i]? = some t) (hj : ws[j]? = some r) (hij : i ≠ j) : t.key ≠ r.key := by
  intro heq
  have hlt := (List.getElem?_eq_some_iff.mp hi).1
  have hget : (ws.map Request.key)[i]? = (ws.map Request.key)[j]? := by
    rw [List.getElem?_map,List.getElem?_map,hi,hj]
    simp [heq]
  exact hij ((List.getElem?_inj (by simpa using hlt) hkeys).mp hget)

section

variable (hinv : Inv A hash ws s chain blocks values) (j : ℕ) (r : Request) (hj : ws[j]? = some r)
  (hactive : (s.stage j).active = true) (hnone : ∀ w ∈ s.writes, w.owner ≠ j)
include hinv j r hj hactive hnone

lemma Inv.other_hash (w : Write) (hw : w ∈ s.writes) :
    ∃ g, g ≠ hash r.key ∧ InRegion A (landed s) s.allocs chain g w := by
  obtain ⟨t,ht,hregion⟩ := hinv.region w hw
  exact ⟨_,hinv.alone w.owner j t r ht hj (hnone w hw) (in_flight_owner w hw)
    (in_flight_active j hactive),hregion⟩

lemma Inv.line (b : ℕ) (hb : b ∈ chain (hash r.key)) (i : ℕ) (hi : i < 8) :
    entryAt s.mem b i = entryAt (landed s) b i := by
  have hload : load (landed s) (b+8*i) 8 = load s.mem (b+8*i) 8 := by
    apply load_store_all
    intro w hw
    obtain ⟨g,hg,hregion⟩ := hinv.other_hash j r hj hactive hnone w hw
    have := region_line hinv.represents.stored.shape g _ hg w hregion b hb
    change w.address+w.cells.length ≤ b+8*i ∨ b+8*i+8 ≤ w.address
    omega
  rw [entryAt,entryAt,hload]

end

section

variable (hinv : Inv A hash ws s chain blocks values)
include hinv

lemma Inv.to_come (m : ℕ) (hm : m < A.count) (hn : s.allocs ≤ m) (i : ℕ) (hi : i < 8) :
    entryAt (landed s) (A.block m).toNat i = entryAt s.mem (A.block m).toNat i := by
  have hs := hinv.represents.stored.shape
  have hline := A.line_le m hm
  have hload : load (landed s) ((A.block m).toNat+8*i) 8 =
      load s.mem ((A.block m).toNat+8*i) 8 := by
    apply load_store_all
    intro w hw
    change w.address+w.cells.length ≤ (A.block m).toNat+8*i ∨ (A.block m).toNat+8*i+8 ≤ w.address
    obtain ⟨r,-,⟨b,hb,hlo,hhi⟩ | ⟨k,hk,-,hlo,hhi⟩⟩ := hinv.region w hw
    · have := hs.value_apart m hm (hs.fresh_out m hm hn) _ b hb
      omega
    · have := A.apart m hm k (by omega) (by omega)
      omega
  rw [entryAt,entryAt,hload]

lemma inv_stage (j : ℕ) (r : Request) (hj : ws[j]? = some r) (stage : Stage)
    (halone : ∀ i t, ws[i]? = some t → i ≠ j → inFlight s i = true → stage.active = true →
      hash t.key ≠ hash r.key)
    (hnone : ∀ w ∈ s.writes, w.owner ≠ j)
    (hstage : StageOk hash (landed s) chain values s.writes j r stage) :
    Inv A hash ws { s with stage := update s.stage j stage } chain blocks values := by
  have hother : ∀ i, i ≠ j →
      inFlight { s with stage := update s.stage j stage } i = inFlight s i := by
    intro i hi
    rw [inFlight,inFlight]
    dsimp only
    rw [update_of_ne hi]
  have hself : inFlight { s with stage := update s.stage j stage } j = true →
      stage.active = true := by
    intro h
    rw [inFlight,Bool.or_eq_true] at h
    dsimp only at h
    rw [update_self] at h
    rcases h with h | h
    · exact h
    · obtain ⟨w,hw,howner⟩ := any_eq_true.mp h
      exact absurd (by simpa using howner) (hnone w hw)
  refine ⟨hinv.represents,hinv.apart,hinv.region,?_,?_⟩
  · intro i k t u hi hk hne hfi hfk
    by_cases hij : i = j
    · subst hij
      rw [hother k hne.symm] at hfk
      have hr : t = r := Option.some.inj (hi.symm.trans hj)
      rw [hr]
      exact (halone k u hk hne.symm hfk (hself hfi)).symm
    · rw [hother i hij] at hfi
      by_cases hkj : k = j
      · subst hkj
        have hr : u = r := Option.some.inj (hk.symm.trans hj)
        rw [hr]
        exact halone i t hi hij hfi (hself hfk)
      · rw [hother k hkj] at hfk
        exact hinv.alone i k t u hi hk hne hfi hfk
  · intro i t hi
    dsimp only
    by_cases hij : i = j
    · subst hij
      have hr : t = r := Option.some.inj (hi.symm.trans hj)
      rw [update_self,hr]
      exact hstage
    · rw [update_of_ne hij]
      exact hinv.stage i t hi

lemma Inv.still_alone (j : ℕ) (r : Request) (hj : ws[j]? = some r)
    (hactive : (s.stage j).active = true) (i : ℕ) (t : Request) (hi : ws[i]? = some t) (hne : i ≠ j)
    (hfi : inFlight s i = true) :
    hash t.key ≠ hash r.key :=
  hinv.alone i j t r hi hj hne hfi (in_flight_active j hactive)

lemma inv_issue (j : ℕ) (u : Pipeline) (hok : apartInTime A hash ws s (.issue j) = true)
    (hstep : step A hash ws s (.issue j) = some u) : Inv A hash ws u chain blocks values := by
  simp only [step] at hstep
  split at hstep
  · rename_i r hj hwait
    cases hstep
    have hold := hinv.stage j r hj
    rw [hwait] at hold
    obtain ⟨hvalue,hnone⟩ := hold
    apply inv_stage hinv j r hj _ ?_ hnone
    · refine ⟨hvalue,hnone,?_⟩
      rw [hash_address]
      exact mem_of_mem_head? (hinv.represents.stored.shape.head _)
    · intro i t hi hne hfi _ heq
      have hlt : i < ws.length := by
        by_contra hge
        rw [List.getElem?_eq_none (by omega)] at hi
        cases hi
      have hall := all_eq_true.mp hok i (mem_range.mpr hlt)
      simp [hne,hfi,hi,hj,heq] at hall
  · cases hstep

lemma inv_fetch (j : ℕ) (u : Pipeline) (hstep : step A hash ws s (.fetch j) = some u) :
    Inv A hash ws u chain blocks values := by
  simp only [step] at hstep
  split at hstep
  · rename_i r addr hj hissued
    cases hstep
    have hactive : (s.stage j).active = true := by rw [hissued]; rfl
    have hold := hinv.stage j r hj
    rw [hissued] at hold
    obtain ⟨hvalue,hnone,hmem⟩ := hold
    apply inv_stage hinv j r hj _
      (fun i t hi hne hfi _ => hinv.still_alone j r hj hactive i t hi hne hfi) hnone
    refine ⟨hvalue,hnone,addr,hmem,?_⟩
    exact fetched_congr _ r addr (fun i hi => hinv.line j r hj hactive hnone _ hmem i hi)
  · cases hstep

lemma inv_loopback (hws : ∀ w ∈ ws, w.cmd = .write ∧ Carried w) (j : ℕ) (u : Pipeline)
    (hstep : step A hash ws s (.loopback j) = some u) : Inv A hash ws u chain blocks values := by
  simp only [step] at hstep
  split at hstep
  · rename_i r c hj hfetched
    split_ifs at hstep with hloop
    cases hstep
    have hactive : (s.stage j).active = true := by rw [hfetched]; rfl
    have hold := hinv.stage j r hj
    rw [hfetched] at hold
    obtain ⟨hvalue,hnone,addr,hmem,rfl⟩ := hold
    apply inv_stage hinv j r hj _
      (fun i t hi hne hfi _ => hinv.still_alone j r hj hactive i t hi hne hfi) hnone
    refine ⟨hvalue,hnone,?_⟩
    have hcmd : (r.bucketCommand hash).cmd = .write := (hws r (mem_of_getElem? hj)).1
    have hnext : (entryAt (landed s) addr.toNat 7).valid = true := by
      simp only [EntryCommand.loopback,EntryCommand.is,fetchedCommand,entryCommand,hcmd,
        decide_true,if_true,Bool.and_eq_true,lineAt] at hloop
      exact hloop.2
    exact linked_next _ (hinv.represents.stored.shape.linked _) _ hmem hnext
  · cases hstep

lemma inv_commit (j : ℕ) (port : Port) (u : Pipeline)
    (hstep : step A hash ws s (.commit j port) = some u) :
    Inv A hash ws u chain blocks values := by
  simp only [step] at hstep
  split at hstep
  · rename_i w hfind
    cases hstep
    have hw := mem_of_find?_eq_some hfind
    have hlanded : landed { s with mem := store s.mem w.address w.cells,
                                   writes := s.writes.erase w } = landed s :=
      store_all_erase range s.mem s.writes w hw hinv.apart
    have hsub : ∀ v ∈ s.writes.erase w, v ∈ s.writes := fun v hv => mem_of_mem_erase hv
    have hflight : ∀ i, inFlight { s with mem := store s.mem w.address w.cells,
                                          writes := s.writes.erase w } i = true →
        inFlight s i = true := by
      intro i h
      refine in_flight_mono i ?_ ?_ h
      · dsimp only
        exact in_flight_active i
      · intro v hv howner
        exact howner ▸ in_flight_owner v (hsub v hv)
    refine ⟨by rw [hlanded]; exact hinv.represents,hinv.apart.sublist erase_sublist,?_,?_,?_⟩
    · intro v hv
      rw [hlanded]
      exact hinv.region v (hsub v hv)
    · intro i k t v hi hk hne hfi hfk
      exact hinv.alone i k t v hi hk hne (hflight i hfi) (hflight k hfk)
    · intro i t hi
      rw [hlanded]
      exact (hinv.stage i t hi).keep rfl (fun hno v hv => hno v (hsub v hv)) (fun _ hc => hc)
        (fun _ _ _ _ _ => rfl)
  · cases hstep

lemma inv_allocate (hws : ∀ w ∈ ws, w.cmd = .write ∧ Carried w)
    (hkeys : (ws.map Request.key).Nodup) (j : ℕ) (u : Pipeline)
    (hok : apartInTime A hash ws s (.allocate j) = true)
    (hstep : step A hash ws s (.allocate j) = some u) :
    ∃ chain' blocks' values', Inv A hash ws u chain' blocks' values' := by
  simp only [step] at hstep
  split at hstep
  · rename_i r c hj hfetched
    split_ifs at hstep with hloop
    cases hstep
    have hactive : (s.stage j).active = true := by rw [hfetched]; rfl
    have hold := hinv.stage j r hj
    rw [hfetched] at hold
    obtain ⟨hvalue,hnone,addr,hmem,rfl⟩ := hold
    obtain ⟨hcmd,hlen,hsize⟩ := hws r (mem_of_getElem? hj)
    have hgrant : Granted A (idle s.mem s.allocs) r := by simpa [apartInTime,hj] using hok
    obtain ⟨⟨hcount,hblank⟩,hroom⟩ := hgrant
    change s.allocs+1 < A.count at hcount
    change r.valueSize.toNat+8 ≤ A.room s.allocs at hroom
    have hzero : ∀ i < 8, (entryAt (landed s) (A.block (s.allocs+1)).toNat i).valid = false := by
      intro i hi
      rw [hinv.to_come (s.allocs+1) hcount (by omega) i hi]
      exact hblank i hi
    have hrep := hinv.represents
    have hshape := hrep.stored.shape
    obtain ⟨chain',hsent⟩ := sent hshape r hcmd hcount hzero (by omega) hroom addr hmem j
      (by simpa using hloop)
    generalize allocate A s.allocs (fetchedCommand hash (landed s) r addr) = a at hsent ⊢
    have hins := hsent.inserted
    have hrep' := represents_write hrep r ((hrep.none _).mp hvalue) hlen (by omega) hroom _ _ _
      hins
    have hlanded : ∀ stage, landed ⟨s.mem,a.allocs,stage,s.writes++writesOf j r a⟩ =
        storeAll range (landed s) (writesOf j r a) :=
      fun _ => store_all_append range s.mem s.writes (writesOf j r a)
    refine ⟨chain',update blocks r.key (some s.allocs),update values r.key (some r.value),?_⟩
    have hregion : ∀ w ∈ s.writes++writesOf j r a, ∃ t, ws[w.owner]? = some t ∧
        InRegion A (storeAll range (landed s) (writesOf j r a)) a.allocs chain' (hash t.key) w := by
      intro w hw
      rcases mem_append.mp hw with hw | hw
      · obtain ⟨t,ht,hregion⟩ := hinv.region w hw
        exact ⟨t,ht,region_mono hshape.count hins _ w hregion⟩
      · obtain ⟨howner,hregion⟩ := hsent.region w hw
        exact ⟨r,by rw [howner,hj],hregion⟩
    have hflight : ∀ i, inFlight ⟨s.mem,a.allocs,update s.stage j
          (.answered ⟨(fetchedCommand hash (landed s) r addr).id,a.command.matched⟩),
          s.writes++writesOf j r a⟩ i = true → inFlight s i = true := by
      intro i h
      by_cases hij : i = j
      · rw [hij]
        exact in_flight_active j hactive
      · refine in_flight_mono i ?_ ?_ h
        · dsimp only
          rw [update_of_ne hij]
          exact in_flight_active i
        · intro w hw howner
          rcases mem_append.mp hw with hw | hw
          · exact howner ▸ in_flight_owner w hw
          · exact absurd (howner.symm.trans (hsent.region w hw).1) hij
    constructor
    · rw [hlanded]
      exact hrep'
    · refine pairwise_append.mpr ⟨hinv.apart,hsent.apart,?_⟩
      intro w hw v hv
      obtain ⟨g,hg,hregion⟩ := hinv.other_hash j r hj hactive hnone w hw
      exact regions_apart hrep'.stored g _ hg w v (region_mono hshape.count hins _ w hregion)
        (hsent.region v hv).2
    · intro w hw
      rw [hlanded]
      exact hregion w hw
    · intro i k t v hi hk hne hfi hfk
      exact hinv.alone i k t v hi hk hne (hflight i hfi) (hflight k hfk)
    · intro i t hi
      rw [hlanded]
      dsimp only
      by_cases hij : i = j
      · subst hij
        have hr : t = r := Option.some.inj (hi.symm.trans hj)
        rw [update_self,hr]
        exact update_self ..
      · rw [update_of_ne hij]
        refine (hinv.stage i t hi).keep (update_of_ne (key_ne hkeys hi hj hij) ..) ?_
          (hins.lines _) ?_
        · intro hno w hw
          rcases mem_append.mp hw with hw | hw
          · exact hno w hw
          · rw [(hsent.region w hw).1]
            exact Ne.symm hij
        · intro hact c hc k hk
          exact hins.others _ (hinv.still_alone j r hj hactive i t hi hij (in_flight_active i hact))
            c hc k hk
  · cases hstep

end

end

def Safe (s : Pipeline) : Prop :=
  ∃ chain blocks values, Inv A hash ws s chain blocks values

lemma safe_step (hws : ∀ w ∈ ws, w.cmd = .write ∧ Carried w)
    (hkeys : (ws.map Request.key).Nodup) (s : Pipeline) (a : Action) (u : Pipeline)
    (hs : Safe A hash ws s) (hok : apartInTime A hash ws s a = true)
    (hstep : step A hash ws s a = some u) : Safe A hash ws u := by
  obtain ⟨chain,blocks,values,hinv⟩ := hs
  cases a with
  | issue j => exact ⟨chain,blocks,values,inv_issue hinv j u hok hstep⟩
  | fetch j => exact ⟨chain,blocks,values,inv_fetch hinv j u hstep⟩
  | loopback j => exact ⟨chain,blocks,values,inv_loopback hinv hws j u hstep⟩
  | allocate j => exact inv_allocate hinv hws hkeys j u hok hstep
  | commit j port => exact ⟨chain,blocks,values,inv_commit hinv j port u hstep⟩

lemma safe_start (mem : ℕ → Byte) (hclear : Clear mem) : Safe A hash ws (start mem) := by
  refine ⟨_,_,_,clear_represents A hash mem hclear,List.Pairwise.nil,nofun,?_,?_⟩
  · intro i j r t _ _ _ hi
    cases hi
  · intro j r _
    exact ⟨rfl,nofun⟩

/-- If no two writes of a hash are in flight together, all of them are kept. -/
theorem apart_writes_read (mem : ℕ → Byte) (hclear : Clear mem)
    (hws : ∀ w ∈ ws, w.cmd = .write ∧ Carried w) (hkeys : (ws.map Request.key).Nodup)
    (acts : List Action)
    (hok : Guarded (step A hash ws) (fun s a => apartInTime A hash ws s a = true) acts (start mem))
    (s : Pipeline) (hrun : run (step A hash ws) acts (start mem) = some s)
    (hanswered : ∀ j < ws.length, ∃ id, s.stage j = .answered ⟨id,true⟩) (hlanded : s.writes = [])
    (w : Request) (hw : w ∈ ws) (r : Request) (hr : r.cmd = .read) (hkey : r.key = w.key)
    (hval : r.valueSize = w.valueSize) :
    (handle A hash (idle s.mem s.allocs) r).2.replies = [⟨r.id,true⟩] ∧
      (handle A hash (idle s.mem s.allocs) r).2.packets.flatten = w.value := by
  obtain ⟨chain,blocks,values,hinv⟩ := run_invariant (step A hash ws) _ (Safe A hash ws)
    (safe_step A hash ws hws hkeys) acts (start mem) s (safe_start A hash ws mem hclear) hok hrun
  obtain ⟨j,hj⟩ := List.getElem?_of_mem hw
  obtain ⟨id,hstage⟩ := hanswered j (List.getElem?_eq_some_iff.mp hj).1
  have hvalue := hinv.stage j w hj
  rw [hstage] at hvalue
  have hrep := hinv.represents
  rw [landed,hlanded] at hrep
  obtain ⟨-,hlen,hsize⟩ := hws w hw
  exact read_value hrep r hr w.value (by rw [hkey]; exact hvalue) (by rw [hval,hlen])
    (by rw [hval]; omega)

def twoWrites : List Request := [request .write 1 [7] 1,request .write 2 [8,9] 2]

/-- Two writes of different lines, in flight together. -/
theorem apart_writes_read_two : ∃ s, run (step socBlocks (fun k => k.setWidth 16) twoWrites)
      [.issue 0,.issue 1,.fetch 1,.fetch 0,.allocate 0,.allocate 1,.commit 1 .pointer,
        .commit 0 .pointer,.commit 0 .data,.commit 1 .data] (start (fun _ => 0)) = some s ∧
    (handle socBlocks (fun k => k.setWidth 16) (idle s.mem s.allocs)
      (request .read 2 [] 2)).2.packets.flatten = [8,9] := by
  obtain ⟨s,hrun,hfirst,hsecond,hwrites⟩ := exists_checked (run (step socBlocks
      (fun k => k.setWidth 16) twoWrites) [.issue 0,.issue 1,.fetch 1,.fetch 0,.allocate 0,
      .allocate 1,.commit 1 .pointer,.commit 0 .pointer,.commit 0 .data,.commit 1 .data]
      (start (fun _ => 0)))
    (fun s => s.stage 0 = .answered ⟨0,true⟩ ∧ s.stage 1 = .answered ⟨0,true⟩ ∧ s.writes = [])
    (by decide +kernel)
  refine ⟨s,hrun,?_⟩
  refine (apart_writes_read socBlocks (fun k => k.setWidth 16) _ (fun _ => 0) zero_clear
    (by simp [twoWrites,request,Carried]) (by decide) _ (by decide +kernel) s hrun ?_ hwrites
    (request .write 2 [8,9] 2) (by simp [twoWrites]) (request .read 2 [] 2) rfl rfl rfl).2
  intro j hj
  obtain rfl | rfl : j = 0 ∨ j = 1 := by
    simp only [twoWrites,length_cons,length_nil] at hj
    omega
  · exact ⟨0,hfirst⟩
  · exact ⟨0,hsecond⟩

/-- Two writes fetch a line before either is written, and the first key is lost. -/
theorem insert_lost : ∃ s, run (step socBlocks (fun _ => 0)
      [request .write 1 [7] 1,request .write 2 [8] 1])
      [.issue 0,.issue 1,.fetch 0,.fetch 1,.allocate 0,.allocate 1,.commit 0 .data,
        .commit 0 .pointer,.commit 1 .data,.commit 1 .pointer] (start (fun _ => 0)) = some s ∧
    s.stage 0 = .answered ⟨0,true⟩ ∧ s.stage 1 = .answered ⟨0,true⟩ ∧ s.writes = [] ∧
    (handle socBlocks (fun _ => 0) (idle s.mem s.allocs) (request .read 1 [] 1)).2.replies =
      [⟨0,false⟩] :=
  exists_checked _ _ (by decide +kernel)

end Clio.KeyValuePipeline
