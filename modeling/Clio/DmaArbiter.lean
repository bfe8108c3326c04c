import Clio.ArbiterFork
import Clio.Machine

/-!
# Sharing the DMA

The data of the ports is arbitrated by packets, and a queue of ports chooses the commands.
-/

namespace Clio.DmaArbiter

open List ArbiterFork
open Prod (fst)

variable {n : ℕ} {C D : Type}

/-! ## Requests behind the routes -/

variable {Q : Type}

lemma lift_served {P R : Type} [DecidableEq P] (f : Q → R) (ins : P → List Q)
    (routed : List (P × R)) (h : ∀ p, partOf p routed <+: (ins p).map f) :
    ∃ served : List (P × Q), served.map (fun x => (x.1,f x.2)) = routed ∧
      ∀ p, partOf p served <+: ins p := by
  induction routed using List.reverseRecOn with
  | nil => exact ⟨[],rfl,fun p => nil_prefix⟩
  | append_singleton routed x ih =>
    obtain ⟨src,r⟩ := x
    obtain ⟨served,rfl,hserved⟩ := ih fun p => by
      have hp := h p
      rw [part_of_append] at hp
      exact (prefix_append _ _).trans hp
    have hpart : ∀ p, partOf p (served.map fun x => (x.1,f x.2)) = (partOf p served).map f := by
      intro p
      rw [partOf,partOf,filter_map,map_map,map_map]
      rfl
    obtain ⟨rest,hrest⟩ := hserved src
    have hsrc := h src
    rw [part_of_append,hpart,part_of_single,if_pos rfl,← hrest,map_append,
      prefix_append_right_inj] at hsrc
    cases rest with
    | nil => simp at hsrc
    | cons q rest =>
      rw [map_cons,cons_prefix_cons] at hsrc
      refine ⟨served++[(src,q)],by simp [hsrc.1],fun p => ?_⟩
      rw [part_of_append,part_of_single]
      by_cases hp : p = src
      · subst hp
        rw [if_pos rfl,← hrest]
        exact ⟨rest,by simp⟩
      · rw [if_neg hp,append_nil]
        exact hserved p

lemma prefix_of_ports {P : Type} [DecidableEq P] (ins : P → List Q) (sent served : List (P × Q))
    (hports : sent.map fst <+: served.map fst) (hsent : ∀ p, partOf p sent <+: ins p)
    (hserved : ∀ p, partOf p served <+: ins p) : sent <+: served := by
  induction sent using List.reverseRecOn with
  | nil => exact nil_prefix
  | append_singleton sent x ih =>
    obtain ⟨src,q⟩ := x
    rw [map_append] at hports
    obtain ⟨rest,rfl⟩ := ih ((prefix_append _ _).trans hports) fun p => by
      have hp := hsent p
      rw [part_of_append] at hp
      exact (prefix_append _ _).trans hp
    rw [map_append,prefix_append_right_inj] at hports
    cases rest with
    | nil => simp at hports
    | cons y rest =>
      obtain ⟨src',q'⟩ := y
      have hsrc : src = src' := by simpa using hports
      subst hsrc
      obtain ⟨more,hmore⟩ := hsent src
      obtain ⟨more',hmore'⟩ := hserved src
      have hfirst : partOf src ((src,q')::rest) = q'::partOf src rest := by simp [partOf]
      rw [← hmore,part_of_append,part_of_append,part_of_single,if_pos rfl,hfirst,
        append_assoc,append_assoc] at hmore'
      have hq := append_cancel_left hmore'
      rw [cons_append,cons_append,List.cons.injEq] at hq
      exact ⟨rest,by simp [hq.1]⟩

lemma none_left {P : Type} [DecidableEq P] (ins : P → List Q) (served more : List (P × Q))
    (h : ∀ p, partOf p (served++more) <+: ins p) (hall : ∀ p, partOf p served = ins p) :
    more = [] := by
  rw [eq_nil_iff_forall_not_mem]
  rintro ⟨p,x⟩ hx
  have hp := (h p).length_le
  rw [part_of_append,length_append,hall p,part_of_length] at hp
  have hpos : 0 < (more.map fst).count p := count_pos_iff.mpr (mem_map.mpr ⟨(p,x),hx,rfl⟩)
  omega

/-! ## Writes -/

structure Parcel (C D : Type) where
  cmd : C
  packet : Packet D
  deriving DecidableEq, Repr

structure WriteArbiter (n : ℕ) (C D : Type) where
  front : Front n D
  cmds : Fin n → List C
  outCmd : List C

structure WriteCycle (n : ℕ) where
  front : Ready n
  cmdValid : Fin n → Bool
  cmdReady : Bool

def cmdOutput (s : WriteArbiter n C D) (i : WriteCycle n) : WriteArbiter n C D :=
  match s.front.route with
  | [] => s
  | r::route =>
      match s.cmds r with
      | [] => s
      | c::cmds =>
          if i.cmdValid r && i.cmdReady then
            { front := { s.front with route := route }
              cmds := Function.update s.cmds r cmds
              outCmd := s.outCmd++[c] }
          else s

def writeStep (s : WriteArbiter n C D) (i : WriteCycle n) : WriteArbiter n C D :=
  cmdOutput { s with front := step 4 s.front i.front } i

def writeRun (schedule : List (WriteCycle n)) (s : WriteArbiter n C D) : WriteArbiter n C D :=
  schedule.foldl writeStep s

def writeStart (ins : Fin n → List (Parcel C D)) : WriteArbiter n C D :=
  ⟨ArbiterFork.start fun p => (ins p).map Parcel.packet,fun p => (ins p).map Parcel.cmd,[]⟩

structure WriteInv (ins : Fin n → List (Parcel C D)) (routed : List (Fin n × Packet D))
    (sent : List (Fin n × Parcel C D)) (rest : Fin n → List (Parcel C D))
    (s : WriteArbiter n C D) : Prop where
  stage : Stage (fun p => (ins p).map Parcel.packet) routed s.front
  route : routed.map Prod.fst = sent.map Prod.fst++s.front.route
  split : ∀ p, ins p = partOf p sent++rest p
  cmds : ∀ p, s.cmds p = (rest p).map Parcel.cmd
  out : s.outCmd = sent.map fun x => x.2.cmd

lemma write_start (ins : Fin n → List (Parcel C D)) :
    WriteInv ins [] [] ins (writeStart ins) :=
  ⟨stage_start _,rfl,fun _ => rfl,fun _ => rfl,rfl⟩

section

variable {ins : Fin n → List (Parcel C D)} {routed : List (Fin n × Packet D)}
  {sent : List (Fin n × Parcel C D)} {rest : Fin n → List (Parcel C D)} {s : WriteArbiter n C D}

lemma stage_route {ins : Fin n → List (Packet D)} {s : Front n D} (hs : Stage ins routed s)
    (route : List (Fin n)) : Stage ins routed { s with route := route } := by
  cases hs with
  | between _ passed todo h =>
    exact .between _ routed todo ⟨h.locked,h.linkData,h.linkRoute,h.first,h.split,h.inputs,h.out⟩
  | within _ passed todo p q pre b rem _ hlock hv hheld =>
    exact .within _ passed todo p q pre b rem _ hlock
      ⟨hv.split,hv.beats,hv.inputs,hv.out,hv.routed,hv.first⟩ hheld

section

variable (h : WriteInv ins routed sent rest s)
include h

lemma command_waits {r : Fin n} {route : List (Fin n)} (hroute : s.front.route = r::route) :
    ∃ x more, rest r = x::more ∧ s.cmds r = x.cmd::more.map Parcel.cmd := by
  have hlen : (partOf r routed).length ≤ (ins r).length := by
    obtain ⟨more,hmore,-⟩ := stage_output h.stage
    have := ((prefix_append _ _).trans (part_of_append r routed more ▸ hmore r)).length_le
    rwa [length_map] at this
  rw [part_of_length,h.route,hroute,count_append,count_cons_self,h.split r,
    length_append,part_of_length] at hlen
  cases hrest : rest r with
  | nil =>
    rw [hrest,length_nil] at hlen
    omega
  | cons x more => exact ⟨x,more,rfl,by rw [h.cmds r,hrest,map_cons]⟩

variable (i : WriteCycle n)

lemma output_inv : ∃ sent' rest', WriteInv ins routed sent' rest' (cmdOutput s i) := by
  cases hroute : s.front.route with
  | nil => exact ⟨sent,rest,by simpa [cmdOutput,hroute] using h⟩
  | cons r route =>
    obtain ⟨x,more,hrest,hcmds⟩ := command_waits h hroute
    cases hfire : i.cmdValid r && i.cmdReady with
    | false => exact ⟨sent,rest,by simpa [cmdOutput,hroute,hcmds,hfire] using h⟩
    | true =>
      refine ⟨sent++[(r,x)],Function.update rest r more,?_⟩
      simp only [cmdOutput,hroute,hcmds,hfire,if_pos]
      refine ⟨stage_route h.stage route,?_,fun p => ?_,fun p => ?_,?_⟩
      · rw [h.route,hroute]
        simp
      · rw [h.split p,part_of_append,part_of_single]
        by_cases hp : p = r
        · subst hp
          simp [hrest]
        · simp [hp]
      · by_cases hp : p = r
        · subst hp
          simp
        · simp [hp,h.cmds p]
      · simp [h.out]

lemma front_inv (i : Ready n) :
    ∃ routed', WriteInv ins routed' sent rest { s with front := step 4 s.front i } := by
  obtain ⟨new,hstage,hroute⟩ := step_stage 4 h.stage i
  refine ⟨routed++new,hstage,?_,h.split,h.cmds,h.out⟩
  rw [map_append,h.route,hroute,append_assoc]

lemma write_step_inv :
    ∃ routed' sent' rest', WriteInv ins routed' sent' rest' (writeStep s i) := by
  obtain ⟨routed',hfront⟩ := front_inv h i.front
  obtain ⟨sent',rest',hout⟩ := output_inv hfront i
  exact ⟨routed',sent',rest',hout⟩

end

end

/-- Everything is ready. -/
def WriteCycle.full (i : WriteCycle n) : Bool :=
  decide (∀ p, i.front.arrive p = true ∧ i.cmdValid p = true) && i.front.dataReady && i.cmdReady

def writeWork (s : WriteArbiter n C D) : ℕ := left s.front+∑ p, (s.cmds p).length

variable {i : WriteCycle n}

lemma full_ready (h : i.full = true) (p : Fin n) :
    i.front.arrive p = true ∧ i.cmdValid p = true ∧ i.front.dataReady = true ∧
      i.cmdReady = true := by
  simp only [WriteCycle.full,Bool.and_eq_true,decide_eq_true_eq] at h
  exact ⟨(h.1.1 p).1,(h.1.1 p).2,h.1.2,h.2⟩

lemma output_work_le (s : WriteArbiter n C D) (i : WriteCycle n) :
    writeWork (cmdOutput s i) ≤ writeWork s := by
  unfold cmdOutput
  split
  · exact le_refl _
  · next r route hroute =>
    split
    · exact le_refl _
    · next c cmds hcmds =>
      split_ifs
      · refine Nat.add_le_add (le_refl _) (Finset.sum_le_sum fun p _ => ?_)
        by_cases hp : p = r
        · subst hp
          simp [hcmds]
        · simp [hp]
      · exact le_refl _

lemma write_work_le (s : WriteArbiter n C D) (i : WriteCycle n) :
    writeWork (writeStep s i) ≤ writeWork s :=
  (output_work_le _ i).trans (Nat.add_le_add_right (left_step_le 4 s.front i.front) _)

section

variable {ins : Fin n → List (Parcel C D)} {routed : List (Fin n × Packet D)}
  {sent : List (Fin n × Parcel C D)} {rest : Fin n → List (Parcel C D)} {s : WriteArbiter n C D}

lemma output_work_full (h : WriteInv ins routed sent rest s) (hfull : i.full = true) {r : Fin n}
    {route : List (Fin n)} (hroute : s.front.route = r::route) :
    writeWork s = writeWork (cmdOutput s i)+1 := by
  obtain ⟨x,more,hrest,hcmds⟩ := command_waits h hroute
  obtain ⟨-,hvalid,-,hready⟩ := full_ready hfull r
  have hout : cmdOutput s i = ⟨{ s.front with route := route },
      Function.update s.cmds r (more.map Parcel.cmd),s.outCmd++[x.cmd]⟩ := by
    simp [cmdOutput,hroute,hcmds,hvalid,hready]
  rw [hout,writeWork,writeWork,Nat.add_assoc]
  congr 1
  refine sum_update (p := r) ?_ fun p hp => ?_
  · simp [hcmds]
  · simp [hp]

lemma commands_done (h : WriteInv ins routed sent rest s) (hleft : left s.front = 0)
    (hroute : s.front.route = []) (p : Fin n) : rest p = [] := by
  have hall := (stage_end h.stage hleft).1 p
  have hlen := congrArg List.length hall
  rw [part_of_length,h.route,hroute,append_nil,← part_of_length,length_map,
    h.split p,length_append] at hlen
  exact eq_nil_of_length_eq_zero (by omega)

lemma write_work_full (h : WriteInv ins routed sent rest s) (hfull : i.full = true) :
    writeWork (writeStep s i) ≤ writeWork s-1 := by
  obtain ⟨routed',hfront⟩ := front_inv h i.front
  have hle := left_step_le 4 s.front i.front
  cases hroute : (step 4 s.front i.front).route with
  | cons r route =>
    have hcmd := output_work_full hfront hfull hroute
    rw [writeWork] at hcmd
    change left (step 4 s.front i.front)+∑ p, (s.cmds p).length = _ at hcmd
    have hwork : writeWork s = left s.front+∑ p, (s.cmds p).length := rfl
    rw [writeStep]
    omega
  | nil =>
    -- the queue was empty before, so it had room
    obtain ⟨new,-,hgrow⟩ := step_stage 4 h.stage i.front
    have hempty : s.front.route = [] := (append_eq_nil_iff.mp (hgrow ▸ hroute)).1
    have hstep : writeStep s i = { s with front := step 4 s.front i.front } := by
      simp [writeStep,cmdOutput,hroute]
    rw [hstep]
    by_cases hleft : left s.front = 0
    · have hnone : ∀ p, s.cmds p = [] := fun p => by
        rw [h.cmds p,commands_done h hleft hempty p,map_nil]
      simp only [writeWork,hnone]
      simp
      omega
    · have harrive : ∀ p, i.front.arrive p = true := fun p => (full_ready hfull p).1
      have hdata : i.front.dataReady = true := by
        simp only [WriteCycle.full,Bool.and_eq_true] at hfull
        exact hfull.1.2
      have hless := left_step_full 4 h.stage harrive hdata (by simp [hempty]) hleft
      simp only [writeWork]
      omega

end

lemma write_run_inv (ins : Fin n → List (Parcel C D)) (schedule : List (WriteCycle n)) :
    ∃ routed sent rest, WriteInv ins routed sent rest (writeRun schedule (writeStart ins)) ∧
      writeWork (writeRun schedule (writeStart ins)) ≤
        writeWork (writeStart ins)-schedule.countP WriteCycle.full := by
  obtain ⟨k,⟨routed,sent,rest,h,rfl⟩,hk⟩ := Machine.run_work writeStep WriteCycle.full
    (fun k s => ∃ routed sent rest, WriteInv ins routed sent rest s ∧ writeWork s = k)
    (fun k s i hs => by
      obtain ⟨_,_,_,h,rfl⟩ := hs
      obtain ⟨routed,sent,rest,h'⟩ := write_step_inv h i
      exact ⟨_,⟨routed,sent,rest,h',rfl⟩,write_work_le s i,write_work_full h⟩)
    schedule ⟨[],[],ins,write_start ins,rfl⟩
  exact ⟨routed,sent,rest,h,hk⟩

def writeTotal (ins : Fin n → List (Parcel C D)) : ℕ :=
  ∑ p, ((ins p).flatMap fun x => x.packet.beats).length+∑ p, (ins p).length

lemma write_start_work (ins : Fin n → List (Parcel C D)) :
    writeWork (writeStart ins) = writeTotal ins := by
  simp [writeWork,writeStart,left,ArbiterFork.start,writeTotal,flatMap_map]

/-- One list of requests, in order for each port, gives the commands and the beats put out; with
enough ready cycles both are all of it. -/
def WritesServed (ins : Fin n → List (Parcel C D)) (schedule : List (WriteCycle n)) : Prop :=
  let s := writeRun schedule (writeStart ins)
  ∃ served : List (Fin n × Parcel C D), (∀ p, partOf p served <+: ins p) ∧
    s.outCmd <+: served.map (fun x => x.2.cmd) ∧
    s.front.out <+: served.flatMap (fun x => x.2.packet.beats) ∧
    (writeTotal ins ≤ schedule.countP WriteCycle.full →
      (∀ p, partOf p served = ins p) ∧ s.outCmd = served.map (fun x => x.2.cmd) ∧
      s.front.out = served.flatMap fun x => x.2.packet.beats)

lemma writes_served (ins : Fin n → List (Parcel C D)) (schedule : List (WriteCycle n)) :
    WritesServed ins schedule := by
  obtain ⟨routed,sent,rest,h,hwork⟩ := write_run_inv ins schedule
  rw [write_start_work] at hwork
  unfold WritesServed
  generalize writeRun schedule (writeStart ins) = s at h hwork
  obtain ⟨more,hmore,hout⟩ := stage_output h.stage
  obtain ⟨served,hserved,hparts⟩ := lift_served Parcel.packet ins (routed++more) hmore
  have hports : served.map fst = (routed++more).map fst := by
    rw [← hserved,map_map]
    rfl
  have hbeats : served.flatMap (fun x => x.2.packet.beats) =
      (routed++more).flatMap fun x => x.2.beats := by
    rw [← hserved,flatMap_map]
  have hsent : sent <+: served := by
    refine prefix_of_ports ins sent served ?_ (fun p => ⟨rest p,(h.split p).symm⟩) hparts
    rw [hports,map_append,h.route,append_assoc]
    exact prefix_append _ _
  refine ⟨served,hparts,?_,hbeats ▸ hout,fun henough => ?_⟩
  · rw [h.out]
    exact hsent.map _
  · have hzero : writeWork s = 0 := by omega
    rw [writeWork,Nat.add_eq_zero_iff,Finset.sum_eq_zero_iff] at hzero
    have hrest : ∀ p, rest p = [] := by
      intro p
      have hlen := hzero.2 p (Finset.mem_univ p)
      rw [h.cmds p,length_map] at hlen
      exact eq_nil_of_length_eq_zero hlen
    have hall : ∀ p, partOf p sent = ins p := by
      intro p
      rw [h.split p,hrest p,append_nil]
    -- a longer list would have a port with more requests than it made
    obtain ⟨extra,rfl⟩ := hsent
    have hextra : extra = [] := none_left ins sent extra hparts hall
    subst hextra
    rw [append_nil] at hports hbeats ⊢
    refine ⟨hall,h.out,?_⟩
    obtain ⟨hrouted,hdata⟩ := stage_end h.stage hzero.1
    rw [hbeats,hdata]
    rw [none_left _ routed more hmore hrouted,append_nil]

/-! ## Reads -/

structure ReadArbiter (n : ℕ) (C D : Type) where
  front : Front n C
  memory : List (Frag D)
  held : Option (Frag D)
  got : Fin n → List (Frag D)

/-- Commands are taken by `front.dataReady`; `seen`: the port at the front has arrived. -/
structure ReadCycle (n : ℕ) where
  front : Ready n
  dmaValid : Bool
  seen : Bool
  portReady : Fin n → Bool

/-- A command is a packet of one beat. -/
def single (c : C) : Packet C := ⟨[],c⟩

def demux (s : ReadArbiter n C D) (i : ReadCycle n) : Option (Fin n) :=
  match s.held, s.front.route with
  | some _, r::_ => if i.seen && i.portReady r then some r else none
  | _, _ => none

section

variable (answer : ℕ → Packet D)

def returned (k m : ℕ) : List (Frag D) :=
  (List.range' k (m-k)).flatMap fun j => (answer j).beats

def readStep (s : ReadArbiter n C D) (i : ReadCycle n) : ReadArbiter n C D :=
  let front := step 64 s.front i.front
  let fire := demux s i
  let accept := s.held.isNone || fire.isSome
  { front := { front with
      route := if fire.isSome && s.held.any Frag.last then front.route.tail else front.route }
    memory := (if accept && i.dmaValid then s.memory.tail else s.memory)++
      returned answer s.front.out.length front.out.length
    held := if accept then (if i.dmaValid then s.memory.head? else none) else s.held
    got := fun p => if fire = some p then s.got p++s.held.toList else s.got p }

def readRun (schedule : List (ReadCycle n)) (s : ReadArbiter n C D) : ReadArbiter n C D :=
  schedule.foldl (readStep answer) s

def dataFor (ports : List (Fin n)) (p : Fin n) : List (Frag D) :=
  (ports.zipIdx.filter fun x => x.1 = p).flatMap fun x => (answer x.2).beats

end

def readStart (ins : Fin n → List C) : ReadArbiter n C D :=
  ⟨ArbiterFork.start fun p => (ins p).map single,[],none,fun _ => []⟩

/-! ## Returned data -/

section

variable (answer : ℕ → Packet D)

lemma returned_self (k : ℕ) : returned answer k k = [] := by
  simp [returned]

lemma returned_cons {k m : ℕ} (h : k < m) :
    returned answer k m = (answer k).beats++returned answer (k+1) m := by
  obtain ⟨l,rfl⟩ := Nat.exists_eq_add_of_lt h
  rw [returned,returned,show k+l+1-k = l+1 by omega,show k+l+1-(k+1) = l by omega,
    List.range'_succ,flatMap_cons]

lemma returned_append {k m l : ℕ} (hk : k ≤ m) (hl : m ≤ l) :
    returned answer k m++returned answer m l = returned answer k l := by
  obtain ⟨a,rfl⟩ := Nat.exists_eq_add_of_le hk
  obtain ⟨b,rfl⟩ := Nat.exists_eq_add_of_le hl
  rw [returned,returned,returned,← flatMap_append,Nat.add_sub_cancel_left,
    Nat.add_sub_cancel_left,show k+a+b-k = a+b by omega,List.range'_append_1]

lemma returned_short {k m : ℕ} (hkm : k ≤ m) {pre : List (Frag D)}
    (hshort : pre.length < (answer k).beats.length) (h : pre = returned answer k m) : k = m := by
  by_contra hne
  rw [returned_cons answer (Nat.lt_of_le_of_ne hkm hne)] at h
  rw [h,length_append] at hshort
  omega

lemma returned_beat {k m : ℕ} (hkm : k ≤ m) {pre more : List (Frag D)} {b : Frag D}
    (hshort : pre.length < (answer k).beats.length) (h : pre++b::more = returned answer k m) :
    ∃ rem, (answer k).beats = pre++b::rem ∧ more = rem++returned answer (k+1) m := by
  have hlt : k < m := by
    refine Nat.lt_of_le_of_ne hkm fun heq => ?_
    rw [heq,returned_self] at h
    simp at h
  rw [returned_cons answer hlt] at h
  obtain ⟨mid,hmid,hrest⟩ | ⟨mid,hmid,-⟩ := append_eq_append_iff.mp h
  · cases mid with
    | nil =>
      rw [hmid,append_nil] at hshort
      exact absurd hshort (lt_irrefl _)
    | cons c rem =>
      rw [cons_append,List.cons.injEq] at hrest
      obtain ⟨rfl,hmore⟩ := hrest
      exact ⟨rem,hmid,hmore⟩
  · rw [hmid,length_append] at hshort
    omega

lemma data_for_append (xs ys : List (Fin n)) (p : Fin n) :
    dataFor answer xs p <+: dataFor answer (xs++ys) p := by
  rw [dataFor,dataFor,zipIdx_append,filter_append,flatMap_append]
  exact prefix_append _ _

lemma data_for_snoc (xs : List (Fin n)) (r p : Fin n) :
    dataFor answer (xs++[r]) p =
      dataFor answer xs p++if r = p then (answer xs.length).beats else [] := by
  rw [dataFor,dataFor,zipIdx_append,filter_append,flatMap_append]
  by_cases h : r = p
  · simp [h]
  · simp [h]

end

/-! ## Runs of the read arbiter -/

section

variable {answer : ℕ → Packet D} {ins : Fin n → List C} {routed : List (Fin n × Packet C)}
  {taken : List (Fin n)} {pre : List (Frag D)} {s : ReadArbiter n C D}

structure ReadInv (answer : ℕ → Packet D) (ins : Fin n → List C) (routed : List (Fin n × Packet C))
    (taken : List (Fin n)) (pre : List (Frag D)) (s : ReadArbiter n C D) : Prop where
  stage : Stage (fun p => (ins p).map single) routed s.front
  route : routed.map Prod.fst = taken++s.front.route
  sent : taken.length ≤ s.front.out.length
  short : pre.length < (answer taken.length).beats.length
  data : pre++(s.held.toList++s.memory) = returned answer taken.length s.front.out.length
  port : s.front.route = [] → pre = []
  got : ∀ p, s.got p = dataFor answer taken p++if s.front.route.head? = some p then pre else []

lemma beats_pos (q : Packet D) : 0 < q.beats.length := List.length_pos_iff.mpr (beats_ne_nil q)

lemma read_start (answer : ℕ → Packet D) (ins : Fin n → List C) :
    ReadInv answer ins [] [] [] (readStart ins) :=
  ⟨stage_start _,rfl,Nat.zero_le _,beats_pos _,by simp [readStart, ArbiterFork.start, returned],
    fun _ => rfl,fun p => by simp [readStart, dataFor, ArbiterFork.start]⟩

lemma out_grows (depth : ℕ) (s : Front n C) (i : Ready n) :
    s.out.length ≤ (step depth s i).out.length := by
  simp only [step]
  split_ifs
  · simp
  · exact le_refl _

lemma refill (valid : Bool) (memory : List (Frag D)) :
    (if valid then memory.head? else none).toList++(if valid then memory.tail else memory) =
      memory := by
  cases valid with
  | false => rfl
  | true =>
    cases memory with
    | nil | cons b more => rfl

lemma demux_some {i : ReadCycle n} {r : Fin n} (h : demux s i = some r) :
    ∃ b route, s.held = some b ∧ s.front.route = r::route := by
  unfold demux at h
  split at h
  · next b r' route hheld hroute =>
    split_ifs at h
    cases h
    exact ⟨b,route,hheld,hroute⟩
  · cases h

lemma wait_inv (h : ReadInv answer ins routed taken pre s) {i : ReadCycle n}
    (hfire : demux s i = none) :
    ∃ routed', ReadInv answer ins routed' taken pre (readStep answer s i) := by
  obtain ⟨new,hstage,hroute⟩ := step_stage 64 h.stage i.front
  have hgrow := out_grows 64 s.front i.front
  have hfront : (readStep answer s i).front = step 64 s.front i.front := by
    simp [readStep,hfire]
  refine ⟨routed++new,?_,?_,?_,h.short,?_,?_,?_⟩
  · rw [hfront]
    exact hstage
  · rw [hfront,hroute,map_append,h.route,append_assoc]
  · rw [hfront]
    exact h.sent.trans hgrow
  · rw [hfront,← returned_append answer h.sent hgrow,← h.data]
    cases hheld : s.held with
    | none =>
      have := refill i.dmaValid s.memory
      simp only [readStep,hfire,hheld,Option.isNone_none,Bool.true_or,Bool.true_and,if_pos,
        Option.toList_none,nil_append]
      rw [← append_assoc _ _ (returned _ _ _),this,append_assoc]
    | some b => simp [readStep,hfire,hheld]
  · intro hnil
    rw [hfront,hroute,append_eq_nil_iff] at hnil
    exact h.port hnil.1
  · intro p
    rw [hfront,hroute]
    simp only [readStep,hfire]
    rw [if_neg (by simp),h.got p]
    cases hr : s.front.route with
    | nil => simp [h.port hr]
    | cons r route => rfl

lemma deliver_inv (h : ReadInv answer ins routed taken pre s) {i : ReadCycle n} {r : Fin n}
    (hfire : demux s i = some r) :
    ∃ routed' taken' pre', ReadInv answer ins routed' taken' pre' (readStep answer s i) := by
  obtain ⟨b,route,hheld,hr⟩ := demux_some hfire
  obtain ⟨new,hstage,hroute⟩ := step_stage 64 h.stage i.front
  have hgrow := out_grows 64 s.front i.front
  have hdata := h.data
  rw [hheld,Option.toList_some,singleton_append] at hdata
  obtain ⟨rem,hbeats,hmore⟩ := returned_beat answer h.sent h.short hdata
  have hlast := last_iff hbeats
  have hmem : (readStep answer s i).held.toList++(readStep answer s i).memory =
      s.memory++returned answer s.front.out.length (step 64 s.front i.front).out.length := by
    have := refill i.dmaValid s.memory
    simp only [readStep,hfire,Option.isSome_some,Bool.or_true,Bool.true_and,if_pos]
    rw [← append_assoc,this]
  have hout : (readStep answer s i).front.out = (step 64 s.front i.front).out := rfl
  have hgot : ∀ p, (readStep answer s i).got p =
      dataFor answer taken p++if r = p then pre++[b] else [] := by
    intro p
    simp only [readStep,hfire,hheld,h.got p,hr,List.head?_cons,Option.some.injEq]
    by_cases hp : r = p
    · simp [hp]
    · simp [hp]
  cases rem with
  | nil =>
    have hb : b.last = true := hlast
    have hnext : (readStep answer s i).front.route = route++new.map fst := by
      simp [readStep,hfire,hheld,hb,hroute,hr]
    have hsent : taken.length+1 ≤ s.front.out.length := by
      refine Nat.lt_of_le_of_ne h.sent fun heq => ?_
      rw [heq,returned_self] at hdata
      simp at hdata
    refine ⟨routed++new,taken++[r],[],stage_route hstage _,?_,?_,beats_pos _,?_,fun _ => rfl,?_⟩
    · rw [hnext,map_append,h.route,hr]
      simp
    · rw [length_append,hout]
      exact hsent.trans hgrow
    · rw [nil_append,hmem,hmore,nil_append,length_append,hout]
      exact returned_append answer hsent hgrow
    · intro p
      rw [hgot p,data_for_snoc,hbeats]
      simp
  | cons c rem =>
    have hb : b.last = false := hlast
    have hnext : (readStep answer s i).front.route = r::(route++new.map fst) := by
      simp [readStep,hheld,hb,hroute,hr]
    refine ⟨routed++new,taken,pre++[b],stage_route hstage _,?_,?_,?_,?_,?_,?_⟩
    · rw [hnext,map_append,h.route,hr]
      simp
    · rw [hout]
      exact h.sent.trans hgrow
    · rw [hbeats]
      simp
    · rw [hmem,hout,← returned_append answer h.sent hgrow,← hdata]
      simp
    · intro hnil
      rw [hnext] at hnil
      cases hnil
    · intro p
      rw [hgot p,hnext]
      simp

lemma read_step_inv (h : ReadInv answer ins routed taken pre s) (i : ReadCycle n) :
    ∃ routed' taken' pre', ReadInv answer ins routed' taken' pre' (readStep answer s i) := by
  cases hfire : demux s i with
  | none =>
    obtain ⟨routed',h'⟩ := wait_inv h hfire
    exact ⟨routed',taken,pre,h'⟩
  | some r => exact deliver_inv h hfire

end

/-! ## Progress of the reads -/

section

variable {ins : Fin n → List C} {routed : List (Fin n × Packet C)} {s : Front n C}

variable (xs : List (Fin n × Q))

lemma length_parts : xs.length = ∑ p, (partOf p xs).length := by
  induction xs with
  | nil => simp [partOf]
  | cons x xs ih =>
    obtain ⟨r,q⟩ := x
    have hsum : ∑ p, (partOf p ((r,q)::xs)).length = ∑ p, (partOf p xs).length+1 := by
      refine sum_update (p := r) ?_ fun p hp => ?_
      · simp [partOf]
      · simp [partOf,Ne.symm hp]
    rw [hsum,length_cons,ih]

lemma single_beats (xs : List (Fin n × Packet C))
    (h : ∀ p, partOf p xs <+: (ins p).map single) :
    (xs.flatMap fun x => x.2.beats).length = xs.length := by
  obtain ⟨served,rfl,-⟩ := lift_served single ins xs h
  rw [flatMap_map]
  simp [length_flatMap,single,Packet.beats]

lemma length_le_ins {reqs : Fin n → List Q} (h : ∀ p, partOf p xs <+: reqs p) :
    xs.length ≤ ∑ p, (reqs p).length := by
  rw [length_parts]
  exact Finset.sum_le_sum fun p _ => (h p).length_le

section

variable (hs : Stage (fun p => (ins p).map single) routed s)
include hs

lemma out_le_ins :
    s.out.length ≤ ∑ p, (ins p).length := by
  obtain ⟨more,hmore,hout⟩ := stage_output hs
  have hlen := hout.length_le
  rw [single_beats _ hmore] at hlen
  have hle := length_le_ins _ hmore
  simp only [length_map] at hle
  exact hlen.trans hle

lemma routed_le_out :
    routed.length ≤ s.out.length+1 := by
  cases hs with
  | between _ passed todo h =>
    have hparts : ∀ p, partOf p routed <+: (ins p).map single := fun p => ⟨todo p,(h.split p).symm⟩
    rw [h.out,single_beats _ hparts]
    omega
  | within _ passed todo p q pre b rem _ hlock hv hheld =>
    have hparts : ∀ p', partOf p' passed <+: (ins p').map single := by
      intro p'
      rw [hv.split p',part_of_append,append_assoc]
      exact prefix_append _ _
    rw [hv.out,hv.routed,append_assoc,length_append,single_beats _ hparts]
    split_ifs <;> simp <;> omega

lemma end_counts (hleft : left s = 0) :
    s.out.length = routed.length ∧ routed.length = ∑ p, (ins p).length := by
  obtain ⟨hall,hout⟩ := stage_end hs hleft
  have hparts : ∀ p, partOf p routed <+: (ins p).map single := fun p => by
    rw [hall p]
  refine ⟨by rw [hout,single_beats _ hparts],?_⟩
  rw [length_parts]
  exact Finset.sum_congr rfl fun p _ => by rw [hall p,length_map]

end

end

section

variable {answer : ℕ → Packet D} {ins : Fin n → List C} {routed : List (Fin n × Packet C)}
  {taken : List (Fin n)} {pre : List (Frag D)} {s : ReadArbiter n C D}

/-- Everything is ready. -/
def ReadCycle.full (i : ReadCycle n) : Bool :=
  decide (∀ p, i.front.arrive p = true ∧ i.portReady p = true) && i.front.dataReady &&
    i.dmaValid && i.seen

lemma full_read {i : ReadCycle n} (h : i.full = true) :
    (∀ p, i.front.arrive p = true) ∧ (∀ p, i.portReady p = true) ∧ i.front.dataReady = true ∧
      i.dmaValid = true ∧ i.seen = true := by
  simp only [ReadCycle.full,Bool.and_eq_true,decide_eq_true_eq] at h
  exact ⟨fun p => (h.1.1.1 p).1,fun p => (h.1.1.1 p).2,h.1.1.2,h.1.2,h.2⟩

def beatWork (memory : List (Frag D)) (held : Option (Frag D)) : ℕ :=
  2*memory.length+held.toList.length

def readWork (answer : ℕ → Packet D) (ins : Fin n → List C) (s : ReadArbiter n C D) : ℕ :=
  left s.front+beatWork s.memory s.held+
    2*(returned answer s.front.out.length (∑ p, (ins p).length)).length

def memoryAfter (s : ReadArbiter n C D) (i : ReadCycle n) : List (Frag D) :=
  if (s.held.isNone || (demux s i).isSome) && i.dmaValid then s.memory.tail else s.memory

lemma read_work_step (h : ReadInv answer ins routed taken pre s) (i : ReadCycle n) :
    readWork answer ins (readStep answer s i) = left (step 64 s.front i.front)+
        beatWork (memoryAfter s i) (readStep answer s i).held+
        2*(returned answer s.front.out.length (∑ p, (ins p).length)).length := by
  have hgrow := out_grows 64 s.front i.front
  obtain ⟨new,hstage,-⟩ := step_stage 64 h.stage i.front
  have hsplit := congrArg List.length
    (returned_append answer hgrow (out_le_ins hstage))
  rw [length_append] at hsplit
  have hmem : (readStep answer s i).memory = memoryAfter s i++
      returned answer s.front.out.length (step 64 s.front i.front).out.length := rfl
  have hleft : left (readStep answer s i).front = left (step 64 s.front i.front) := rfl
  have hout : (readStep answer s i).front.out = (step 64 s.front i.front).out := rfl
  rw [readWork,hleft,hout,beatWork,beatWork,hmem,length_append]
  omega

lemma beat_work_le (answer : ℕ → Packet D) (s : ReadArbiter n C D) (i : ReadCycle n) :
    beatWork (memoryAfter s i) (readStep answer s i).held ≤ beatWork s.memory s.held := by
  simp only [memoryAfter,readStep,beatWork]
  cases haccept : s.held.isNone || (demux s i).isSome with
  | false => simp
  | true =>
    cases hvalid : i.dmaValid with
    | false => simp
    | true =>
      cases s.memory with
      | nil => simp
      | cons b more =>
        simp
        omega

lemma read_work_le (h : ReadInv answer ins routed taken pre s) (i : ReadCycle n) :
    readWork answer ins (readStep answer s i) ≤ readWork answer ins s := by
  rw [read_work_step h i,readWork]
  have hleft := left_step_le 64 s.front i.front
  have hbeat := beat_work_le answer s i
  omega

lemma beat_work_full (answer : ℕ → Packet D) (s : ReadArbiter n C D) {i : ReadCycle n}
    (hfull : i.full = true)
    (hsome : s.held ≠ none ∧ s.front.route ≠ [] ∨ s.held = none ∧ s.memory ≠ []) :
    beatWork (memoryAfter s i) (readStep answer s i).held+1 ≤ beatWork s.memory s.held := by
  obtain ⟨-,hready,-,hvalid,hseen⟩ := full_read hfull
  simp only [memoryAfter,readStep,beatWork]
  rcases hsome with ⟨hheld,hroute⟩ | ⟨hheld,hmem⟩
  · obtain ⟨b,hb⟩ := Option.ne_none_iff_exists'.mp hheld
    obtain ⟨r,route,hr⟩ := exists_cons_of_ne_nil hroute
    have hfire : demux s i = some r := by simp [demux,hb,hr,hseen,hready r]
    cases hm : s.memory with
    | nil | cons c more => simp [hfire,hb,hvalid]
  · obtain ⟨c,more,hm⟩ := exists_cons_of_ne_nil hmem
    simp [hheld,hvalid,hm]
    omega

lemma command_moves (h : ReadInv answer ins routed taken pre s)
    (hno : ¬(s.held ≠ none ∧ s.front.route ≠ [] ∨ s.held = none ∧ s.memory ≠ [])) :
    s.front.route.length < 64 ∧ (left s.front = 0 → readWork answer ins s = 0) := by
  have hcount := congrArg List.length h.route
  rw [length_map,length_append] at hcount
  have hahead := routed_le_out h.stage
  have hsent := h.sent
  cases hheld : s.held with
  | some b =>
    have hroute : s.front.route = [] := by
      by_contra hne
      exact hno (.inl ⟨by simp [hheld],hne⟩)
    refine ⟨by simp [hroute],fun hleft => ?_⟩
    -- the data of a command have come whose port is still to enter the queue
    have hdata := h.data
    rw [hroute,length_nil,Nat.add_zero] at hcount
    rw [← hcount,← (end_counts h.stage hleft).1,returned_self,hheld] at hdata
    simp at hdata
  | none =>
    have hmem : s.memory = [] := by
      by_contra hne
      exact hno (.inr ⟨hheld,hne⟩)
    have hdata := h.data
    rw [hheld,hmem,Option.toList_none,append_nil,append_nil] at hdata
    have hall := returned_short answer h.sent h.short hdata
    refine ⟨by omega,fun hleft => ?_⟩
    have hend := end_counts h.stage hleft
    rw [readWork,hleft,hmem,hheld,hend.1,hend.2,returned_self]
    rfl

lemma read_work_full (h : ReadInv answer ins routed taken pre s) {i : ReadCycle n}
    (hfull : i.full = true) :
    readWork answer ins (readStep answer s i) ≤ readWork answer ins s-1 := by
  have hle := read_work_le h i
  rw [read_work_step h i] at hle ⊢
  have hleft := left_step_le 64 s.front i.front
  by_cases hmove : s.held ≠ none ∧ s.front.route ≠ [] ∨ s.held = none ∧ s.memory ≠ []
  · have hbeat := beat_work_full answer s hfull hmove
    rw [readWork]
    omega
  · obtain ⟨hroom,hdone⟩ := command_moves h hmove
    by_cases hzero : left s.front = 0
    · have := hdone hzero
      omega
    · obtain ⟨harrive,-,hdata,-,-⟩ := full_read hfull
      have hless := left_step_full 64 h.stage harrive hdata hroom hzero
      have hbeat := beat_work_le answer s i
      rw [readWork]
      omega

end

lemma read_run_inv (answer : ℕ → Packet D) (ins : Fin n → List C)
    (schedule : List (ReadCycle n)) :
    ∃ routed taken pre,
      ReadInv answer ins routed taken pre (readRun answer schedule (readStart ins)) ∧
      readWork answer ins (readRun answer schedule (readStart ins)) ≤
        readWork answer ins (readStart ins)-schedule.countP ReadCycle.full := by
  obtain ⟨k,⟨routed,taken,pre,h,rfl⟩,hk⟩ := Machine.run_work (readStep answer) ReadCycle.full
    (fun k s => ∃ routed taken pre, ReadInv answer ins routed taken pre s ∧
      readWork answer ins s = k)
    (fun k s i hs => by
      obtain ⟨_,_,_,h,rfl⟩ := hs
      obtain ⟨routed,taken,pre,h'⟩ := read_step_inv h i
      exact ⟨_,⟨routed,taken,pre,h',rfl⟩,read_work_le h i,read_work_full h⟩)
    schedule ⟨[],[],[],read_start answer ins,rfl⟩
  exact ⟨routed,taken,pre,h,hk⟩

def readTotal (answer : ℕ → Packet D) (ins : Fin n → List C) : ℕ :=
  ∑ p, (ins p).length+2*(returned answer 0 (∑ p, (ins p).length)).length

lemma read_start_work (answer : ℕ → Packet D) (ins : Fin n → List C) :
    readWork answer ins (readStart ins) = readTotal answer ins := by
  have hleft : left (readStart (D := D) ins).front = ∑ p, (ins p).length := by
    rw [left]
    refine Finset.sum_congr rfl fun p _ => ?_
    simp [readStart,ArbiterFork.start,flatMap_map,length_flatMap,single,Packet.beats]
  rw [readWork,hleft,readTotal]
  rfl

lemma got_begins {answer : ℕ → Packet D} {ins : Fin n → List C}
    {routed : List (Fin n × Packet C)} {taken : List (Fin n)} {pre : List (Frag D)}
    {s : ReadArbiter n C D} (h : ReadInv answer ins routed taken pre s) (p : Fin n) :
    s.got p <+: dataFor answer (routed.map fst) p := by
  rw [h.got p,h.route]
  cases hroute : s.front.route with
  | nil => simp
  | cons r route =>
    have hpre : pre <+: (answer taken.length).beats := by
      have hdata : pre <+: returned answer taken.length s.front.out.length := ⟨_,h.data⟩
      rcases Nat.lt_or_ge taken.length s.front.out.length with hlt | hge
      · rw [returned_cons answer hlt] at hdata
        exact prefix_of_prefix_length_le hdata (prefix_append _ _)
          (Nat.le_of_lt h.short)
      · rw [Nat.le_antisymm h.sent hge,returned_self,prefix_nil] at hdata
        rw [hdata]
        exact nil_prefix
    have hsnoc := data_for_append answer (taken++[r]) route p
    rw [append_assoc,singleton_append] at hsnoc
    refine List.IsPrefix.trans ?_ hsnoc
    rw [data_for_snoc,prefix_append_right_inj]
    by_cases hp : r = p
    · simpa [hp] using hpre
    · simp [hp]

/-- One list of reads, in order for each port, gives the commands of the DMA and the packets of each
port; with enough ready cycles both are all of it. -/
def ReadsServed (answer : ℕ → Packet D) (ins : Fin n → List C) (schedule : List (ReadCycle n)) :
    Prop :=
  let s := readRun answer schedule (readStart ins)
  ∃ issued : List (Fin n × C), (∀ p, partOf p issued <+: ins p) ∧
    s.front.out.map Frag.fragment <+: issued.map Prod.snd ∧
    (∀ p, s.got p <+: dataFor answer (issued.map Prod.fst) p) ∧
    (readTotal answer ins ≤ schedule.countP ReadCycle.full →
      (∀ p, partOf p issued = ins p) ∧ s.front.out.map Frag.fragment = issued.map Prod.snd ∧
      ∀ p, s.got p = dataFor answer (issued.map Prod.fst) p)

lemma reads_served (answer : ℕ → Packet D) (ins : Fin n → List C)
    (schedule : List (ReadCycle n)) : ReadsServed answer ins schedule := by
  obtain ⟨routed,taken,pre,h,hwork⟩ := read_run_inv answer ins schedule
  rw [read_start_work] at hwork
  unfold ReadsServed
  generalize readRun answer schedule (readStart ins) = s at h hwork
  obtain ⟨more,hmore,hout⟩ := stage_output h.stage
  obtain ⟨issued,hissued,hparts⟩ := lift_served single ins (routed++more) hmore
  have hports : issued.map fst = (routed++more).map fst := by
    rw [← hissued,map_map]
    rfl
  have hcmds : ((routed++more).flatMap fun x => x.2.beats).map Frag.fragment =
      issued.map Prod.snd := by
    rw [← hissued,flatMap_map,map_flatMap,map_eq_flatMap]
    simp [single,Packet.beats]
  refine ⟨issued,hparts,hcmds ▸ hout.map _,fun p => ?_,fun henough => ?_⟩
  · rw [hports,map_append]
    exact (got_begins h p).trans (data_for_append answer _ _ p)
  · have hzero : readWork answer ins s = 0 := by omega
    have hleft : left s.front = 0 := by
      rw [readWork] at hzero
      omega
    obtain ⟨hrouted,hdata⟩ := stage_end h.stage hleft
    obtain rfl : more = [] := none_left _ routed more hmore hrouted
    rw [append_nil] at hports hcmds hissued
    refine ⟨fun p => (hparts p).eq_of_length ?_,by rw [hdata,hcmds],fun p => ?_⟩
    · have hlen := congrArg List.length (hrouted p)
      rw [part_of_length,← hports,← part_of_length,length_map] at hlen
      exact hlen
    · have hbeats : s.held = none ∧ s.memory = [] := by
        rw [readWork,beatWork] at hzero
        refine ⟨Option.toList_eq_nil_iff.mp ?_,?_⟩ <;>
          exact eq_nil_of_length_eq_zero (by omega)
      have hret := h.data
      rw [hbeats.1,hbeats.2,Option.toList_none,append_nil,append_nil] at hret
      have hall := returned_short answer h.sent h.short hret
      have hroute : s.front.route = [] := by
        have hcount := congrArg List.length h.route
        have hend := (end_counts h.stage hleft).1
        rw [length_map,length_append] at hcount
        exact eq_nil_of_length_eq_zero (by omega)
      rw [h.got p,hports,h.route,hroute]
      simp

/-- Both arbiters, for any number of ports, any requests and any timing. -/
theorem requests_keep_their_data {m : ℕ} {C' D' : Type} (writes : Fin n → List (Parcel C D))
    (writeSchedule : List (WriteCycle n)) (reads : Fin m → List C') (answer : ℕ → Packet D')
    (readSchedule : List (ReadCycle m)) :
    WritesServed writes writeSchedule ∧ ReadsServed answer reads readSchedule :=
  ⟨writes_served writes writeSchedule,reads_served answer reads readSchedule⟩

end Clio.DmaArbiter
