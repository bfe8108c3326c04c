import Clio.KeyValueEngine

/-!
# One line of the key-value engine

What the engine does with one line when its queues are empty.
-/

namespace Clio.KeyValueLine

open List UnackedBuffer Memory KeyValueEngine

def busy (mem : ℕ → Byte) (allocs : ℕ) (hitSignals : List Bool) : Engine :=
  ⟨mem,allocs,[],hitSignals,[],[],[],[]⟩

/-- An engine with nothing in its queues. -/
def idle (mem : ℕ → Byte) (allocs : ℕ) : Engine := busy mem allocs []

section

variable (cs : List EntryCommand)

lemma matched_cmd_eq (z : EntryCommand) (committed : Bool) (hcs : ∀ c ∈ cs, c.last = false)
    (hz : z.last = true) :
    matchedCmd committed (cs++[z]) =
      if ((cs++[z]).filter EntryCommand.matched).isEmpty && !committed then [z]
      else (cs++[z]).filter EntryCommand.matched := by
  induction cs generalizing committed with
  | nil => cases hm : z.matched <;> cases committed <;> simp [matchedCmd,hz,hm]
  | cons c cs ih =>
    have hlast := hcs c (by simp)
    rw [cons_append,matchedCmd]
    simp only [hlast,Bool.false_and,Bool.or_false,Bool.false_eq_true,if_false]
    rw [ih _ (fun d hd => hcs d (by simp [hd])),filter_cons]
    cases hm : c.matched <;> cases committed <;> simp

lemma commits_eq (l : List ℕ) : ∃ pre z, commits l = pre++[z] ∧ (∀ s ∈ pre, s.2 = false) ∧
    z.2 = true := by
  induction l using commits.induct with
  | case1 | case2 i => exact ⟨[],_,rfl,by simp,rfl⟩
  | case3 i j is ih =>
    obtain ⟨pre,z,heq,hpre,hz⟩ := ih
    refine ⟨(some i,false)::pre,z,by rw [commits,heq]; rfl,?_,hz⟩
    intro s hs
    rcases mem_cons.mp hs with rfl | hs
    · rfl
    · exact hpre s hs

lemma commits_filter (p : ℕ → Bool) (l : List ℕ) :
    ((commits l).filter (fun s => s.1.any p)).map Prod.fst = (l.filter p).map some := by
  induction l using commits.induct with
  | case1 => rfl
  | case2 i => cases hi : p i <;> simp [commits,hi]
  | case3 i j is ih =>
    rw [commits,filter_cons,filter_cons]
    cases hi : p i <;> simp [hi,ih]

lemma zip_signals {α β : Type} (f : α → β) (p : α → Bool) (l : List α) :
    (((l.map f).zip (l.map p)).filter Prod.snd).map Prod.fst = (l.filter p).map f := by
  induction l with
  | nil => rfl
  | cons a l ih => cases hp : p a <;> simp [hp,ih]

end

section

/-- The memory after the one command of a line. -/
def written (mem : ℕ → Byte) (c : EntryCommand) (data : List Byte) : ℕ → Byte :=
  let mem := if isDataCommit c then store mem c.entry.ptr.toNat (data.take c.kvSize.toNat) else mem
  if isMetaCommit c then putEntry mem c.entrySlotAddr.toNat c.entry else mem

def valueOf (mem : ℕ → Byte) (c : EntryCommand) : List Byte :=
  load mem (c.entry.ptr.toNat+8) (c.fetchSize.toNat-8)

lemma keep_of_data_commit (c : EntryCommand) (h : isDataCommit c = true) :
    keepInputData c = true := by
  unfold isDataCommit at h
  unfold keepInputData
  cases hw : c.is .write <;> cases hu : c.is .update <;> cases hm : c.matched <;>
    simp [hw,hu,hm] at h ⊢

def leftover (mem : ℕ → Byte) (cs : List EntryCommand) (hitSignals : List Bool) : List Bool :=
  (hitSignals++(cs.filter EntryCommand.needFetchedData).map EntryCommand.matched).drop
    (fetchedData mem cs).length

def letThrough (mem : ℕ → Byte) (cs : List EntryCommand) (hitSignals : List Bool) :
    List (List Byte) :=
  (((fetchedData mem cs).zip (hitSignals++(cs.filter EntryCommand.needFetchedData).map
    EntryCommand.matched)).filter Prod.snd).map Prod.fst

variable (mem : ℕ → Byte)

lemma settle_one (n : ℕ) (hitSignals : List Bool) (cs : List EntryCommand) (data : List Byte)
    (c : EntryCommand) (hc : matchedCmd false cs = [c]) :
    settle (busy mem n hitSignals) cs data =
      ({ busy (written mem c data) n (leftover mem cs hitSignals) with
          loopHeaders := if isLoopback c then [loopHeader c] else []
          loopData := if keepInputData c && !isDataCommit c then [data] else [] },
        { replies := if isLoopback c then [] else [⟨c.id,c.matched⟩]
          packets := letThrough mem cs hitSignals
          accesses := (cs.filter EntryCommand.needMatch).map
              (fun c => ⟨c.entry.ptr,c.fetchSize⟩)++
            if isDataCommit c then [⟨c.entry.ptr,c.kvSize⟩] else [] }) := by
  unfold settle
  simp only [hc,busy,nil_append]
  cases hkeep : keepInputData c with
  | false =>
    have hdata : isDataCommit c = false := by
      cases hd : isDataCommit c with
      | false => rfl
      | true => rw [keep_of_data_commit c hd] at hkeep; cases hkeep
    cases hmeta : isMetaCommit c <;> cases hloop : isLoopback c <;>
      simp [routeData,written,putEntries,leftover,letThrough,hkeep,hdata,hmeta,hloop]
  | true =>
    cases hdata : isDataCommit c <;> cases hmeta : isMetaCommit c <;>
      cases hloop : isLoopback c <;>
      simp [routeData,written,putEntries,leftover,letThrough,hkeep,hdata,hmeta,hloop]

variable (cs : List EntryCommand)

lemma fetch_signals (hfetch : ∀ d ∈ cs, d.needFetchedData = true → (8 : BitVec 16) < d.fetchSize)
    :
    leftover mem cs [] = [] ∧ letThrough mem cs [] =
      ((cs.filter EntryCommand.needFetchedData).filter EntryCommand.matched).map (valueOf mem) := by
  have hfetched : fetchedData mem cs = (cs.filter EntryCommand.needFetchedData).map
      (valueOf mem) := by
    unfold fetchedData
    congr 1
    apply filter_congr
    intro d hd
    cases hn : d.needFetchedData with
    | false => rfl
    | true =>
      have hlt := hfetch d hd hn
      rw [decide_eq_true hlt]
      rfl
  constructor
  · unfold leftover
    rw [hfetched]
    simp
  · unfold letThrough
    rw [hfetched,nil_append]
    exact zip_signals (valueOf mem) EntryCommand.matched _

variable (hitSignals : List Bool)

lemma fetch_nothing
    (hfetch : ∀ d ∈ cs, d.needFetchedData = true → ¬ (8 : BitVec 16) < d.fetchSize) :
    letThrough mem cs hitSignals = [] := by
  have hfetched : fetchedData mem cs = [] := by
    unfold fetchedData
    rw [map_eq_nil_iff,filter_eq_nil_iff]
    intro d hd hboth
    obtain ⟨hn,hlt⟩ := Bool.and_eq_true_iff.mp hboth
    exact hfetch d hd hn (of_decide_eq_true hlt)
  unfold letThrough
  rw [hfetched]
  rfl

end

section

def hits (mem : ℕ → Byte) (b : ℕ) (key : Key) : List ℕ :=
  (List.range 7).filter
    (fun i => (entryAt mem b i).valid && keyAt mem (entryAt mem b i).ptr.toNat == key)

def Digested (mem : ℕ → Byte) (b : ℕ) : Prop :=
  ∀ i < 7, (entryAt mem b i).valid = true →
    (entryAt mem b i).check = (keyAt mem (entryAt mem b i).ptr.toNat).setWidth 8

variable (A : Allocator) (mem : ℕ → Byte) (n : ℕ) (b : BucketCommand) (data : List Byte)

def compared : List EntryCommand :=
  (entryCommands (lineAt mem b.entryAddr.toNat) b (keyOf data)).map (fetchMatch mem (keyOf data))

variable (cs : List EntryCommand)

lemma allocate_all_lookup (h : ∀ c ∈ cs, c.is .write = false) :
    allocateAll A n cs = (n,cs,[]) := by
  induction cs with
  | nil => rfl
  | cons c cs ih =>
    rw [allocateAll,allocate,h c (by simp)]
    simp only [Bool.false_and,Bool.false_eq_true,if_false]
    rw [ih (fun d hd => h d (by simp [hd]))]
    rfl

variable (hitSignals : List Bool)

lemma line_step_lookup (hb : b.cmd ≠ .write) :
    lineStep A (busy mem n hitSignals) b data =
      settle (busy mem n hitSignals) (compared mem b data) data := by
  have hno : ∀ c ∈ entryCommands (lineAt mem b.entryAddr.toNat) b (keyOf data),
      c.is .write = false := by
    intro c hc
    obtain ⟨s,-,rfl⟩ := mem_map.mp hc
    simp [EntryCommand.is,entryCommand,hb]
  unfold lineStep
  simp only [busy,allocate_all_lookup A n _ hno]
  rfl

def comparedOne (s : Option ℕ × Bool) : EntryCommand :=
  fetchMatch mem (keyOf data) (entryCommand (lineAt mem b.entryAddr.toNat) b (keyOf data) s)

lemma compared_eq : compared mem b data =
    (commits (matchBits (lineAt mem b.entryAddr.toNat) b.cmd (keyOf data))).map
      (comparedOne mem b data) := by
  unfold compared entryCommands
  rw [map_map]
  rfl

lemma compared_last (s : Option ℕ × Bool) : (comparedOne mem b data s).last = s.2 := by
  unfold comparedOne fetchMatch
  split_ifs <;> rfl

lemma compared_matched (hb : b.cmd ≠ .write) (s : Option ℕ × Bool) :
    (comparedOne mem b data s).matched = s.1.any (fun i =>
      (entryAt mem b.entryAddr.toNat i).valid &&
        keyAt mem (entryAt mem b.entryAddr.toNat i).ptr.toNat == keyOf data) := by
  obtain ⟨sel,last⟩ := s
  have hcmd : b.cmd = .read ∨ b.cmd = .update ∨ b.cmd = .delete := by
    cases hc : b.cmd
    · exact .inl rfl
    · exact absurd hc hb
    · exact .inr (.inl rfl)
    · exact .inr (.inr rfl)
  have hneed : (entryCommand (lineAt mem b.entryAddr.toNat) b (keyOf data) (sel,last)).needMatch =
      (sel.isSome && (entryAt mem b.entryAddr.toNat (sel.getD 0)).valid) := by
    rcases hcmd with h | h | h <;>
      simp [EntryCommand.needMatch,EntryCommand.is,entryCommand,lineAt,h,Bool.and_comm]
  unfold comparedOne fetchMatch
  rw [hneed]
  cases sel with
  | none => rfl
  | some i =>
    cases hv : (entryAt mem b.entryAddr.toNat i).valid with
    | false => simp [hv,entryCommand]
    | true => simp [hv,entryCommand,lineAt]

lemma match_bits_hits (hb : b.cmd ≠ .write) (hd : Digested mem b.entryAddr.toNat) :
    (matchBits (lineAt mem b.entryAddr.toNat) b.cmd (keyOf data)).filter (fun i =>
      (entryAt mem b.entryAddr.toNat i).valid &&
        keyAt mem (entryAt mem b.entryAddr.toNat i).ptr.toNat == keyOf data) =
      hits mem b.entryAddr.toNat (keyOf data) := by
  unfold matchBits hits
  rw [filter_filter]
  apply filter_congr
  intro i hi
  cases hv : (entryAt mem b.entryAddr.toNat i).valid with
  | false => simp
  | true =>
    cases hk : keyAt mem (entryAt mem b.entryAddr.toNat i).ptr.toNat == keyOf data with
    | false => simp
    | true =>
      have hcheck := hd i (mem_range.mp hi) hv
      rw [eq_of_beq hk] at hcheck
      simp [matchHashTableEntry,hb,lineAt,hv,hcheck]

lemma compared_filter (hb : b.cmd ≠ .write) (hd : Digested mem b.entryAddr.toNat) :
    ∃ l : List (Option ℕ × Bool),
      (compared mem b data).filter EntryCommand.matched = l.map (comparedOne mem b data) ∧
      l.map Prod.fst = (hits mem b.entryAddr.toNat (keyOf data)).map some := by
  refine ⟨(commits (matchBits (lineAt mem b.entryAddr.toNat) b.cmd (keyOf data))).filter
    (fun s => s.1.any (fun i => (entryAt mem b.entryAddr.toNat i).valid &&
      keyAt mem (entryAt mem b.entryAddr.toNat i).ptr.toNat == keyOf data)),?_,?_⟩
  · rw [compared_eq,filter_map]
    congr 1
    apply filter_congr
    intro s _
    exact compared_matched mem b data hb s
  · rw [commits_filter,match_bits_hits mem b data hb hd]

lemma compared_shape : ∃ cs s, compared mem b data = cs++[comparedOne mem b data s] ∧
    (∀ c ∈ cs, c.last = false) ∧ s.2 = true := by
  obtain ⟨pre,z,heq,hpre,hz⟩ :=
    commits_eq (matchBits (lineAt mem b.entryAddr.toNat) b.cmd (keyOf data))
  refine ⟨pre.map (comparedOne mem b data),z,?_,?_,hz⟩
  · rw [compared_eq,heq,map_append]
    rfl
  · intro c hc
    obtain ⟨s,hs,rfl⟩ := mem_map.mp hc
    rw [compared_last]
    exact hpre s hs

lemma compared_fetch : ∀ d ∈ compared mem b data,
    d.needFetchedData = true → b.cmd = .read ∧ d.fetchSize = b.valueSize+8 := by
  intro d hd hneed
  rw [compared_eq] at hd
  obtain ⟨s,-,rfl⟩ := mem_map.mp hd
  have hcmd : (comparedOne mem b data s).cmd = b.cmd := by
    unfold comparedOne fetchMatch
    split_ifs <;> rfl
  have hsize : (comparedOne mem b data s).entry.valueSize = b.valueSize := by
    unfold comparedOne fetchMatch
    split_ifs <;> rfl
  have his : (comparedOne mem b data s).is .read = true := (Bool.and_eq_true_iff.mp hneed).1
  have hread : b.cmd = .read := by
    rw [← hcmd]
    exact of_decide_eq_true his
  refine ⟨hread,?_⟩
  rw [EntryCommand.fetchSize,if_pos his,EntryCommand.kvSize,hsize]

def Ready (hitSignals : List Bool) : Prop :=
  (b.cmd = .read → (8 : BitVec 16) < b.valueSize+8) → hitSignals = []

lemma compared_packets (hready : Ready b hitSignals) :
    Ready b (leftover mem (compared mem b data) hitSignals) ∧
      letThrough mem (compared mem b data) hitSignals =
        if b.cmd = .read ∧ (8 : BitVec 16) < b.valueSize+8 then
          (((compared mem b data).filter EntryCommand.needFetchedData).filter
            EntryCommand.matched).map (valueOf mem)
        else [] := by
  by_cases hsize : b.cmd = .read → (8 : BitVec 16) < b.valueSize+8
  · rw [hready hsize]
    obtain ⟨hleft,hthrough⟩ := fetch_signals mem (compared mem b data) (by
      intro d hd hneed
      obtain ⟨hread,hlen⟩ := compared_fetch mem b data d hd hneed
      rw [hlen]
      exact hsize hread)
    refine ⟨fun _ => hleft,?_⟩
    rw [hthrough]
    split_ifs with hread
    · rfl
    · have hnone : (compared mem b data).filter EntryCommand.needFetchedData = [] := by
        rw [filter_eq_nil_iff]
        intro d hd hneed
        have hr := (compared_fetch mem b data d hd hneed).1
        exact hread ⟨hr,hsize hr⟩
      rw [hnone]
      rfl
  · refine ⟨fun h => absurd h hsize,?_⟩
    rw [if_neg (fun h => hsize (fun _ => h.2))]
    apply fetch_nothing
    intro d hd hneed
    obtain ⟨hread,hlen⟩ := compared_fetch mem b data d hd hneed
    rw [hlen]
    exact fun hlt => hsize (fun _ => hlt)

def fetches : List Access :=
  ((compared mem b data).filter EntryCommand.needMatch).map (fun c => ⟨c.entry.ptr,c.fetchSize⟩)

lemma line_step_miss (hready : Ready b hitSignals) (hb : b.cmd ≠ .write)
    (hd : Digested mem b.entryAddr.toNat) (hmiss : hits mem b.entryAddr.toNat (keyOf data) = []) :
    ∃ signals, Ready b signals ∧ lineStep A (busy mem n hitSignals) b data =
      if (entryAt mem b.entryAddr.toNat 7).valid then
        ({ busy mem n signals with
            loopHeaders := [{ b with entryAddr := (entryAt mem b.entryAddr.toNat 7).ptr }]
            loopData := [data] }, { accesses := fetches mem b data })
      else (busy mem n signals,{ replies := [⟨b.id,false⟩], accesses := fetches mem b data }) := by
  obtain ⟨l,hfilter,hl⟩ := compared_filter mem b data hb hd
  rw [hmiss,map_nil,map_eq_nil_iff] at hl
  rw [hl,map_nil] at hfilter
  obtain ⟨cs,s,hcs,hlast,hs⟩ := compared_shape mem b data
  have hcmd : matchedCmd false (compared mem b data) = [comparedOne mem b data s] := by
    have heq := matched_cmd_eq cs (comparedOne mem b data s) false hlast
      ((compared_last mem b data s).trans hs)
    rw [← hcs,hfilter] at heq
    exact heq
  have hmatched : (comparedOne mem b data s).matched = false := by
    have hmem : comparedOne mem b data s ∈ compared mem b data := by rw [hcs]; simp
    cases hm : (comparedOne mem b data s).matched with
    | false => rfl
    | true => exact absurd (mem_filter.mpr ⟨hmem,hm⟩) (by rw [hfilter]; simp)
  have hstill : comparedOne mem b data s =
      entryCommand (lineAt mem b.entryAddr.toNat) b (keyOf data) s := by
    unfold comparedOne fetchMatch at hmatched ⊢
    split_ifs at hmatched ⊢
    · simp only at hmatched
      rw [hmatched]
      rfl
    · rfl
  obtain ⟨hsignals,hthrough⟩ := compared_packets mem b data hitSignals hready
  refine ⟨_,hsignals,?_⟩
  rw [line_step_lookup A mem n b data hitSignals hb,settle_one mem n hitSignals _ data _ hcmd]
  have hpackets : letThrough mem (compared mem b data) hitSignals = [] := by
    rw [hthrough,filter_comm,hfilter]
    simp
  have hwritten : written mem (comparedOne mem b data s) data = mem := by
    simp [written,isDataCommit,isMetaCommit,hmatched]
  have hwrite : (comparedOne mem b data s).is .write = false := by
    rw [hstill]
    simp [EntryCommand.is,entryCommand,hb]
  have hdata : isDataCommit (comparedOne mem b data s) = false := by
    simp [isDataCommit,hmatched]
  have hnext : (comparedOne mem b data s).hasNext = (entryAt mem b.entryAddr.toNat 7).valid := by
    rw [hstill]
    rfl
  have hloop : isLoopback (comparedOne mem b data s) = (entryAt mem b.entryAddr.toNat 7).valid := by
    rw [isLoopback,hmatched,hnext]
    rfl
  have hkeep : keepInputData (comparedOne mem b data s) =
      (entryAt mem b.entryAddr.toNat 7).valid := by
    rw [keepInputData,hwrite,hmatched,EntryCommand.loopback,hwrite,hnext, compared_last,hs]
    simp
  have hheader : loopHeader (comparedOne mem b data s) =
      { b with entryAddr := (entryAt mem b.entryAddr.toNat 7).ptr } := by
    rw [hstill]
    rfl
  have hid : (comparedOne mem b data s).id = b.id := by
    rw [hstill]
    rfl
  rw [hpackets,hwritten,hloop,hkeep,hdata,hheader,hid,hmatched]
  cases (entryAt mem b.entryAddr.toNat 7).valid <;> simp [fetches,busy]

def rewritten (i : ℕ) : KeyValueHashEntry :=
  ⟨(entryAt mem b.entryAddr.toNat i).ptr,true,b.valueSize,b.keySize,(keyOf data).setWidth 8⟩

def afterHit (i : ℕ) : ℕ → Byte :=
  match b.cmd with
  | .update => store mem (entryAt mem b.entryAddr.toNat i).ptr.toNat
      (data.take (b.valueSize+8).toNat)
  | .delete => putEntry mem (b.entryAddr+BitVec.ofNat 32 (i*8)).toNat (rewritten mem b data i)
  | _ => mem

lemma line_step_hit (hready : Ready b hitSignals) (hb : b.cmd ≠ .write)
    (hd : Digested mem b.entryAddr.toNat) (i : ℕ)
    (hhit : hits mem b.entryAddr.toNat (keyOf data) = [i]) :
    ∃ signals, Ready b signals ∧ lineStep A (busy mem n hitSignals) b data =
      (busy (afterHit mem b data i) n signals,
        { replies := [⟨b.id,true⟩]
          packets := if b.cmd = .read ∧ (8 : BitVec 16) < b.valueSize+8 then
            [load mem ((entryAt mem b.entryAddr.toNat i).ptr.toNat+8)
              ((b.valueSize+8).toNat-8)] else []
          accesses := fetches mem b data++if b.cmd = .update then
            [⟨(entryAt mem b.entryAddr.toNat i).ptr,b.valueSize+8⟩] else [] }) := by
  obtain ⟨l,hfilter,hl⟩ := compared_filter mem b data hb hd
  rw [hhit] at hl
  obtain ⟨s,rfl⟩ : ∃ s, l = [s] := by
    apply length_eq_one_iff.mp
    simpa using congrArg List.length hl
  have hsel : s.1 = some i := by simpa using hl
  obtain ⟨cs,z,hcs,hlast,hz⟩ := compared_shape mem b data
  have hcmd : matchedCmd false (compared mem b data) = [comparedOne mem b data s] := by
    have heq := matched_cmd_eq cs (comparedOne mem b data z) false hlast
      ((compared_last mem b data z).trans hz)
    rw [← hcs,hfilter] at heq
    exact heq
  have hin : i ∈ hits mem b.entryAddr.toNat (keyOf data) := by rw [hhit]; simp
  have hhold := (mem_filter.mp hin).2
  have hvalid : (entryAt mem b.entryAddr.toNat i).valid = true := (Bool.and_eq_true_iff.mp hhold).1
  have hmatched : (comparedOne mem b data s).matched = true := by
    rw [compared_matched mem b data hb s,hsel]
    exact hhold
  have hstill : comparedOne mem b data s =
      { entryCommand (lineAt mem b.entryAddr.toNat) b (keyOf data) s with matched := true } := by
    unfold comparedOne fetchMatch at hmatched ⊢
    split_ifs at hmatched ⊢
    · simp only at hmatched
      rw [hmatched]
    · exact absurd hmatched (by simp [entryCommand])
  have hentry : (comparedOne mem b data s).entry = rewritten mem b data i := by
    rw [hstill]
    simp [entryCommand,rewritten,hsel,lineAt,hvalid,hb]
  have hcmdeq : (comparedOne mem b data s).cmd = b.cmd := by
    rw [hstill]
    rfl
  have hslot : (comparedOne mem b data s).entrySlotAddr = b.entryAddr+BitVec.ofNat 32 (i*8) := by
    rw [hstill]
    simp [EntryCommand.entrySlotAddr,entryCommand,hb,hsel]
  have hid : (comparedOne mem b data s).id = b.id := by
    rw [hstill]
    rfl
  obtain ⟨hsignals,hthrough⟩ := compared_packets mem b data hitSignals hready
  have hpackets : letThrough mem (compared mem b data) hitSignals =
      if b.cmd = .read ∧ (8 : BitVec 16) < b.valueSize+8 then
        [load mem ((entryAt mem b.entryAddr.toNat i).ptr.toNat+8)
          ((b.valueSize+8).toNat-8)] else [] := by
    rw [hthrough,filter_comm,hfilter]
    split_ifs with hread
    · simp [EntryCommand.needFetchedData,EntryCommand.is,hcmdeq,hentry,rewritten,hread.1,
        valueOf,EntryCommand.fetchSize,EntryCommand.kvSize]
    · rfl
  refine ⟨_,hsignals,?_⟩
  rw [line_step_lookup A mem n b data hitSignals hb,settle_one mem n hitSignals _ data _ hcmd,
    hpackets]
  have hloop : isLoopback (comparedOne mem b data s) = false := by
    rw [isLoopback,hmatched]
    rfl
  rw [hloop,hid,hmatched]
  cases hc : b.cmd with
  | write => exact absurd hc hb
  | read =>
    simp [written,isDataCommit,isMetaCommit,keepInputData,EntryCommand.is,hcmdeq,hc,
      hmatched,afterHit,fetches,busy]
  | update =>
    simp [written,isDataCommit,isMetaCommit,keepInputData,EntryCommand.is,hcmdeq,hc,
      hmatched,afterHit,fetches,busy,hentry,rewritten,EntryCommand.kvSize]
  | delete =>
    simp [written,isDataCommit,isMetaCommit,keepInputData,EntryCommand.is,hcmdeq,hc,
      hmatched,afterHit,fetches,busy,hentry,rewritten,hslot]

end

section

variable (A : Allocator) (mem : ℕ → Byte) (n : ℕ) (b : BucketCommand) (data : List Byte)

def newEntry (ptr : BitVec 32) : KeyValueHashEntry :=
  ⟨ptr,true,b.valueSize,b.keySize,(keyOf data).setWidth 8⟩

def kvSize : BitVec 16 := b.valueSize+8

/-- The only command of a write on its line. -/
def writeCommand : EntryCommand :=
  entryCommand (lineAt mem b.entryAddr.toNat) b (keyOf data) (none,true)

lemma entry_commands_write (hb : b.cmd = .write) :
    entryCommands (lineAt mem b.entryAddr.toNat) b (keyOf data) = [writeCommand mem b data] := by
  have hnone : matchBits (lineAt mem b.entryAddr.toNat) b.cmd (keyOf data) = [] := by
    simp [matchBits,matchHashTableEntry,hb]
  rw [entryCommands,hnone]
  rfl

lemma settle_write (mem : ℕ → Byte) (n : ℕ) (c : EntryCommand) (hc : c.cmd = .write)
    (hlast : c.last = true) (mem' : ℕ → Byte) (key : Key) :
    settle (idle mem n) ([c].map (fetchMatch mem' key)) data = ({ idle (written mem c data) n with
          loopHeaders := if isLoopback c then [loopHeader c] else []
          loopData := if keepInputData c && !isDataCommit c then [data] else [] },
        { replies := if isLoopback c then [] else [⟨c.id,c.matched⟩]
          accesses := if isDataCommit c then [⟨c.entry.ptr,c.kvSize⟩] else [] }) := by
  have hneed : c.needMatch = false := by simp [EntryCommand.needMatch,EntryCommand.is,hc]
  have hfetch : c.needFetchedData = false := by
    simp [EntryCommand.needFetchedData,EntryCommand.is,hc]
  have hsame : fetchMatch mem' key c = c := by
    rw [fetchMatch,hneed]
    rfl
  have hone : matchedCmd false [c] = [c] := by simp [matchedCmd,hlast]
  rw [map_singleton,hsame,idle,settle_one mem n [] [c] data c hone]
  simp [hneed,hfetch,leftover,letThrough,fetchedData,idle]

lemma line_step_write_free (hb : b.cmd = .write) (i : ℕ)
    (hfree : freeSlot (lineAt mem b.entryAddr.toNat) = some i) :
    lineStep A (idle mem n) b data =
      (idle (putEntry (store mem (A.block n).toNat (data.take (kvSize b).toNat))
          (b.entryAddr+BitVec.ofNat 32 (i*8)).toNat (newEntry b data (A.block n))) (n+1),
        { replies := [⟨b.id,true⟩], accesses := [⟨A.block n,kvSize b⟩] }) := by
  unfold lineStep
  simp only [idle,busy,entry_commands_write mem b data hb,allocateAll,allocate]
  have hgo : ((writeCommand mem b data).is .write &&
      !(writeCommand mem b data).loopback) = true := by
    simp [EntryCommand.is,EntryCommand.loopback,writeCommand,entryCommand,hb,hfree]
  have hvalid : (writeCommand mem b data).entryValid = true := by
    simp [writeCommand,entryCommand,hfree]
  rw [if_pos hgo,if_pos hvalid]
  have h := settle_write data mem (n+1)
    { writeCommand mem b data with
        matched := true
        entry := { (writeCommand mem b data).entry
          with ptr := A.block n } } hb rfl mem (keyOf data)
  refine h.trans ?_
  simp [written,isDataCommit,isMetaCommit,isLoopback,keepInputData,EntryCommand.is,
    writeCommand,entryCommand,hb,hfree,EntryCommand.kvSize,kvSize,newEntry,
    EntryCommand.entrySlotAddr,idle,busy]

lemma line_step_write_next (hb : b.cmd = .write)
    (hfree : freeSlot (lineAt mem b.entryAddr.toNat) = none)
    (hnext : (entryAt mem b.entryAddr.toNat 7).valid = true) :
    lineStep A (idle mem n) b data = ({ idle mem n with
          loopHeaders := [{ b with entryAddr := (entryAt mem b.entryAddr.toNat 7).ptr }]
          loopData := [data] }, {}) := by
  unfold lineStep
  simp only [idle,busy,entry_commands_write mem b data hb,allocateAll,allocate]
  have hstay : ((writeCommand mem b data).is .write &&
      !(writeCommand mem b data).loopback) = false := by
    have hlink : (lineAt mem b.entryAddr.toNat 7).valid = true := hnext
    simp [EntryCommand.is,EntryCommand.loopback,writeCommand,entryCommand,hb,hfree,hlink]
  rw [if_neg (by simp [hstay])]
  have h := settle_write data mem n
    (writeCommand mem b data) hb rfl mem (keyOf data)
  refine h.trans ?_
  simp [written,isDataCommit,isMetaCommit,isLoopback,keepInputData,EntryCommand.is,
    writeCommand,entryCommand,hb,lineAt,hnext,loopHeader,idle,busy]

lemma line_step_write_append (hb : b.cmd = .write)
    (hfree : freeSlot (lineAt mem b.entryAddr.toNat) = none)
    (hnext : (entryAt mem b.entryAddr.toNat 7).valid = false) :
    lineStep A (idle mem n) b data =
      (idle (putEntry (store (putEntry mem (b.entryAddr+56).toNat (linkEntry (A.block (n+1))))
          (A.block n).toNat (data.take (kvSize b).toNat)) (A.block (n+1)).toNat
          (newEntry b data (A.block n))) (n+2),
        { replies := [⟨b.id,true⟩], accesses := [⟨A.block n,kvSize b⟩] }) := by
  unfold lineStep
  simp only [idle,busy,entry_commands_write mem b data hb,allocateAll,allocate]
  have hgo : ((writeCommand mem b data).is .write &&
      !(writeCommand mem b data).loopback) = true := by
    simp [EntryCommand.is,EntryCommand.loopback,writeCommand,entryCommand,hb,lineAt,hnext]
  have hvalid : ¬ (writeCommand mem b data).entryValid = true := by
    simp [writeCommand,entryCommand,hfree]
  rw [if_pos hgo,if_neg hvalid]
  have h := settle_write data
    (putEntry mem (b.entryAddr+56).toNat (linkEntry (A.block (n+1)))) (n+2)
    { writeCommand mem b data with
        linkAddr := A.block (n+1)
        entryAddr := A.block (n+1)
        matched := true
        entry := { (writeCommand mem b data).entry
          with ptr := A.block n } } hb rfl
    (putEntry mem (b.entryAddr+56).toNat (linkEntry (A.block (n+1)))) (keyOf data)
  refine h.trans ?_
  simp [written,isDataCommit,isMetaCommit,isLoopback,keepInputData,EntryCommand.is,
    writeCommand,entryCommand,hb,hfree,EntryCommand.kvSize,kvSize,newEntry,
    EntryCommand.entrySlotAddr,idle,busy]

end

end Clio.KeyValueLine
