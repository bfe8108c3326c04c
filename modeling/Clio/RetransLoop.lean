import Clio.Retransmission

/-!
# The retransmit loop

The packets of a range are sent one after the other, each by two commands.
-/

namespace Clio.RetransLoop

open List StateTable UnackedBuffer Retransmission Machine
open BitVec (allOnes)

/-- The data mover reads a beat for a length, and the beats of a content with the last marked. -/
structure Mover where
  word : ℕ → NetAxis64
  packet : DmCmd → List NetAxis64
  packet_ended : ∀ cmd, ended (packet cmd) = true

structure Loop where
  buf : BufState
  gbnRetransReq : List RetransReq
  rdData : List NetAxis64
  rdCmds : List DmCmd
  rtHeader : List UdpInfo
  rtPayload : List NetAxis64
  timerRstReq : List TimerReq

variable (mover : Mover)

/-- One call; the next beat of the data mover may not have arrived. -/
def call (l : Loop) (arrived : Bool) : Loop :=
  let step := retransStep l.buf l.gbnRetransReq.head? (see arrived l.rdData)
  let rdData := if l.buf.retrans = .recvReq then l.rdData
    else if arrived then l.rdData.tail else l.rdData
  { buf := step.1
    gbnRetransReq :=
      if l.buf.retrans = .recvReq then l.gbnRetransReq.tail else l.gbnRetransReq
    rdData := rdData++step.2.rdCmd1.toList.map (fun cmd => mover.word cmd.startAddress)++
      step.2.rdCmd2.toList.flatMap mover.packet
    rdCmds := l.rdCmds++step.2.rdCmd1.toList++step.2.rdCmd2.toList
    rtHeader := l.rtHeader++step.2.rtHeader.toList
    rtPayload := l.rtPayload++step.2.rtPayload.toList
    timerRstReq := l.timerRstReq++step.2.timer.toList }

/-- The idle machine with one request. -/
def start (b : BufState) (req : RetransReq) : Loop :=
  ⟨{ b with retrans := .recvReq },[req],[],[],[],[],[]⟩

section

variable (b : BufState) (req : RetransReq)

def seqs : List Seqnum :=
  (List.range (req.seqEnd.toNat+1-req.seqStart.toNat)).map (fun k => req.seqStart+BitVec.ofNat 32 k)

def wordOf (q : Seqnum) : NetAxis64 := mover.word (startAddr req q)

def cmdsOf (q : Seqnum) : List DmCmd :=
  [⟨8,startAddr req q⟩,contentCmd req q (wordOf mover req q)]

def headerOf (q : Seqnum) : UdpInfo := retransUdpInfo b req (wordOf mover req q)

def beatsOf (q : Seqnum) : List NetAxis64 :=
  mover.packet (contentCmd req q (wordOf mover req q))

/-- The range is out, each packet from its place, and the timer is restarted once. -/
def finished : Loop :=
  ⟨{ b with retrans := .recvReq },[],[],(seqs req).flatMap (cmdsOf mover req),
    (seqs req).map (headerOf mover b req),(seqs req).flatMap (beatsOf mover req),
    [⟨req.slotid,.reset⟩]⟩

def cost : List Seqnum → ℕ
  | [] => 0
  | q::qs => 2+(beatsOf mover req q).length+cost qs

def atLen (done : List Seqnum) (q : Seqnum) : Loop :=
  ⟨{ b with retrans := .readLen req q },[],[],done.flatMap (cmdsOf mover req),
    done.map (headerOf mover b req),done.flatMap (beatsOf mover req),[]⟩

def atHeader (done : List Seqnum) (q : Seqnum) : Loop :=
  ⟨{ b with retrans := .retransHeader req q },[],[wordOf mover req q],
    done.flatMap (cmdsOf mover req)++[⟨8,startAddr req q⟩],done.map (headerOf mover b req),
    done.flatMap (beatsOf mover req),[]⟩

def atPayload (done : List Seqnum) (q : Seqnum) (pre todo : List NetAxis64) : Loop :=
  ⟨{ b with retrans := .retransPayload req q },[],todo,(done++[q]).flatMap (cmdsOf mover req),
    (done++[q]).map (headerOf mover b req),done.flatMap (beatsOf mover req)++pre,[]⟩

inductive Progress : ℕ → Loop → Prop where
  | request : Progress (1+cost mover req (seqs req)) (start b req)
  | readLen (done more : List Seqnum) (q : Seqnum) (h : seqs req = done++q::more) :
      Progress (cost mover req (q::more))
        (atLen mover b req done q)
  | retransHeader (done more : List Seqnum) (q : Seqnum) (h : seqs req = done++q::more) :
      Progress (1+(beatsOf mover req q).length+cost mover req more)
        (atHeader mover b req done q)
  | retransPayload (done more : List Seqnum) (q : Seqnum) (h : seqs req = done++q::more)
      (pre todo : List NetAxis64) (hbeats : beatsOf mover req q = pre++todo) (hne : todo ≠ []) :
      Progress (todo.length+cost mover req more)
        (atPayload mover b req done q pre todo)
  | finished : Progress 0 (finished mover b req)

end

section

variable {mover : Mover} {b : BufState} {req : RetransReq}

lemma beats_ne_nil (q : Seqnum) : beatsOf mover req q ≠ [] := by
  intro h
  have hended := mover.packet_ended (contentCmd req q (wordOf mover req q))
  rw [show mover.packet (contentCmd req q (wordOf mover req q)) = [] from h] at hended
  cases hended

lemma seqs_split {done more : List Seqnum} {q : Seqnum} (h : seqs req = done++q::more) :
    q.toNat = req.seqStart.toNat+done.length ∧
      req.seqStart.toNat+done.length+more.length = req.seqEnd.toNat ∧
      ∀ q' ∈ more.head?, q'.toNat = q.toNat+1 := by
  have hlen := congrArg List.length h
  simp only [seqs,length_map,length_range,length_append,length_cons] at hlen
  have hend := req.seqEnd.isLt
  have hat : ∀ k, k < req.seqEnd.toNat+1-req.seqStart.toNat → ∀ x : Seqnum,
      (seqs req)[k]? = some x → x.toNat = req.seqStart.toNat+k := by
    intro k hk x hx
    rw [seqs,List.getElem?_map,List.getElem?_range hk,Option.map_some] at hx
    rw [← Option.some.inj hx,BitVec.toNat_add,BitVec.toNat_ofNat,
      Nat.mod_eq_of_lt (show k < 2^32 by omega),Nat.mod_eq_of_lt (by omega)]
  have hq : q.toNat = req.seqStart.toNat+done.length :=
    hat done.length (by omega) q (by rw [h]; simp)
  refine ⟨hq,by omega,?_⟩
  intro q' hq'
  cases more with
  | nil => cases hq'
  | cons x more =>
    cases hq'
    rw [hat (done.length+1) (by simp only [length_cons] at hlen; omega) q' (by rw [h]; simp), hq]
    omega

lemma loop_ends_iff (hmax : req.seqEnd ≠ allOnes 32) {done more : List Seqnum} {q : Seqnum}
    (h : seqs req = done++q::more) :
    (req.seqEnd < q+1 ↔ more = []) ∧ ∀ q' ∈ more.head?, q' = q+1 := by
  obtain ⟨hq,hlen,hnext⟩ := seqs_split h
  have hend := req.seqEnd.isLt
  have hne : req.seqEnd.toNat ≠ 2^32-1 := fun heq => hmax (BitVec.eq_of_toNat_eq heq)
  have hsucc : (q+1).toNat = q.toNat+1 := by
    rw [BitVec.toNat_add]
    show (q.toNat+1)%2^32 = q.toNat+1
    omega
  refine ⟨?_,fun q' hq' => BitVec.eq_of_toNat_eq (by rw [hnext q' hq',hsucc])⟩
  rw [BitVec.lt_def,hsucc,← length_eq_zero_iff]
  omega

end

section

variable {mover : Mover} {b : BufState} {req : RetransReq}

lemma request_call (hle : req.seqStart ≤ req.seqEnd) (arrived : Bool) :
    Progress mover b req (cost mover req (seqs req)) (call mover (start b req) arrived) := by
  have hcons : ∃ more, seqs req = req.seqStart::more := by
    have hle' : req.seqStart.toNat ≤ req.seqEnd.toNat := hle
    obtain ⟨n,hn⟩ : ∃ n, req.seqEnd.toNat+1-req.seqStart.toNat = n+1 :=
      ⟨req.seqEnd.toNat-req.seqStart.toNat,by omega⟩
    refine ⟨((List.range n).map Nat.succ).map fun k => req.seqStart+BitVec.ofNat 32 k,?_⟩
    rw [seqs,hn,range_succ_eq_map,map_cons]
    simp
  obtain ⟨more,hmore⟩ := hcons
  have hcall : call mover (start b req) arrived =
      ⟨{ b with retrans := .readLen req req.seqStart },[],[],[],[],[],[]⟩ := by
    have hlt : ¬req.seqEnd < req.seqStart := BitVec.not_lt.mpr hle
    simp [call,start,retransStep,hlt]
  rw [hcall,hmore]
  exact .readLen [] more req.seqStart hmore

section

variable {done more : List Seqnum} {q : Seqnum} (h : seqs req = done++q::more)
include done more q h

lemma read_len_call (arrived : Bool) :
    Progress mover b req (1+(beatsOf mover req q).length+cost mover req more)
      (call mover (atLen mover b req done q) arrived) := by
  have hnone : see arrived ([] : List NetAxis64) = none := by cases arrived <;> rfl
  have hprogress : Progress mover b req _ _ := .retransHeader done more q h
  simpa [call,atLen,atHeader,retransStep,UnackedBuffer.retransHeader,hnone,wordOf]
    using hprogress

lemma header_call :
    Progress mover b req ((beatsOf mover req q).length+cost mover req more)
      (call mover (atHeader mover b req done q) true) := by
  have hprogress : Progress mover b req _ _ := .retransPayload done more q h [] _ rfl
    (beats_ne_nil q)
  simpa [call,atHeader,atPayload,see,retransStep,UnackedBuffer.retransHeader,cmdsOf,
    headerOf,beatsOf,retransUdpInfo] using hprogress

lemma beat_call {pre todo : List NetAxis64} {beat : NetAxis64}
    (hbeats : beatsOf mover req q = pre++beat::todo) (hne : todo ≠ []) :
    Progress mover b req (todo.length+cost mover req more)
      (call mover (atPayload mover b req done q pre (beat::todo)) true) := by
  have hended := mover.packet_ended (contentCmd req q (wordOf mover req q))
  have hlast : beat.last = false := by
    rw [show mover.packet (contentCmd req q (wordOf mover req q)) = pre++beat::todo from hbeats]
      at hended
    have hiff := ended_split pre todo beat hended
    cases hl : beat.last with
    | false => rfl
    | true => exact absurd (hiff.mp hl) hne
  have hprogress : Progress mover b req _ _ := .retransPayload done more q h (pre++[beat])
    todo (by rw [hbeats]; simp) hne
  simpa [call,atPayload,see,retransStep,UnackedBuffer.retransPayload,hlast] using hprogress

end

lemma last_beat_call (hmax : req.seqEnd ≠ allOnes 32) {done more : List Seqnum}
    {q : Seqnum} (h : seqs req = done++q::more) {pre : List NetAxis64} {beat : NetAxis64}
    (hbeats : beatsOf mover req q = pre++[beat]) :
    Progress mover b req (cost mover req more)
      (call mover (atPayload mover b req done q pre [beat]) true) := by
  have hended := mover.packet_ended (contentCmd req q (wordOf mover req q))
  rw [show mover.packet (contentCmd req q (wordOf mover req q)) = pre++[beat] from hbeats] at hended
  have hlast : beat.last = true := (ended_split pre [] beat hended).mpr rfl
  obtain ⟨hend,hnext⟩ := loop_ends_iff hmax h
  cases more with
  | nil =>
    have hstop : req.seqEnd < q+1 := hend.mpr rfl
    have hstep : retransStep { b with retrans := .retransPayload req q } none (some beat) =
        ({ b with retrans := .recvReq },
          { rtPayload := some beat, timer := some ⟨req.slotid,.reset⟩ }) := by
      simp only [retransStep,UnackedBuffer.retransPayload,hlast,hstop,if_true]
    have hfinished : Progress mover b req _ _ := .finished
    simp only [finished,h,flatMap_append,map_append,flatMap_cons,hbeats,
      flatMap_nil,append_nil,map_cons,map_nil] at hfinished
    simpa [call,atPayload,see,hstep,cost] using hfinished
  | cons q' more =>
    obtain rfl := hnext q' rfl
    have hgo : ¬req.seqEnd < q+1 := fun hlt => cons_ne_nil _ _ (hend.mp hlt)
    have hstep : retransStep { b with retrans := .retransPayload req q } none (some beat) =
        ({ b with retrans := .readLen req (q+1) },{ rtPayload := some beat }) := by
      simp only [retransStep,UnackedBuffer.retransPayload,hlast,hgo,if_true,if_false]
    have hprogress : Progress mover b req _ _ := .readLen (done++[q]) more (q+1)
      (by rw [h]; simp)
    simp only [atLen,flatMap_append,flatMap_cons,hbeats,flatMap_nil, append_nil] at hprogress
    simpa [call,atPayload,see,hstep] using hprogress

lemma call_progress (hle : req.seqStart ≤ req.seqEnd) (hmax : req.seqEnd ≠ allOnes 32)
    {n : ℕ} {l : Loop} (hl : Progress mover b req n l) (arrived : Bool) :
    ∃ m, Progress mover b req m (call mover l arrived) ∧ m ≤ n ∧ (arrived = true → m = n-1) := by
  cases hl with
  | request => exact ⟨_,request_call hle arrived,by omega,fun _ => by omega⟩
  | readLen done more q h =>
    exact ⟨_,read_len_call h arrived,by rw [cost]; omega,fun _ => by rw [cost]; omega⟩
  | retransHeader done more q h =>
    cases arrived with
    | true => exact ⟨_,header_call h,by omega,fun _ => by omega⟩
    | false =>
      refine ⟨_,?_,le_refl _,fun hf => by cases hf⟩
      have hprogress : Progress mover b req _ _ := .retransHeader done more q h
      simpa [call,atHeader,see,retransStep,UnackedBuffer.retransHeader] using hprogress
  | retransPayload done more q h pre todo hbeats hne =>
    cases arrived with
    | true =>
      obtain ⟨beat,todo,rfl⟩ := exists_cons_of_ne_nil hne
      cases todo with
      | nil =>
        exact ⟨_,last_beat_call hmax h hbeats,by simp,fun _ => by simp⟩
      | cons beat' todo =>
        refine ⟨_,beat_call h hbeats (cons_ne_nil _ _),?_,fun _ => ?_⟩
        · simp only [length_cons]
          omega
        · simp only [length_cons]
          omega
    | false =>
      refine ⟨_,?_,le_refl _,fun hf => by cases hf⟩
      have hprogress : Progress mover b req _ _ := .retransPayload done more q h pre todo
        hbeats hne
      simpa [call,atPayload,see,retransStep,UnackedBuffer.retransPayload] using hprogress
  | finished =>
    refine ⟨0,?_,le_refl _,fun _ => rfl⟩
    have hfinished : Progress mover b req _ _ := .finished
    simpa [call,finished,retransStep] using hfinished

lemma run_progress (hle : req.seqStart ≤ req.seqEnd) (hmax : req.seqEnd ≠ allOnes 32)
    (pacing : List Bool) {n : ℕ} {l : Loop} (hl : Progress mover b req n l) :
    ∃ m, Progress mover b req m (runTotal (call mover) pacing l) ∧ m ≤ n-pacing.count true := by
  refine run_work (call mover) (· == true) (Progress mover b req) ?_ pacing hl
  intro n l arrived hl
  obtain ⟨k,hk,hle',hless⟩ := call_progress hle hmax hl arrived
  exact ⟨k,hk,hle',fun h => (hless (eq_of_beq h)).le⟩

lemma progress_done {l : Loop} (h : Progress mover b req 0 l) : l = finished mover b req := by
  generalize hn : 0 = n at h
  cases h with
  | request => omega
  | readLen done more q h =>
    rw [cost] at hn
    omega
  | retransHeader done more q h => omega
  | retransPayload done more q h pre todo hbeats hne =>
    have := length_pos_iff.mpr hne
    omega
  | finished => rfl

lemma never_idle (hmax : req.seqEnd = allOnes 32) (l : Loop) (arrived : Bool)
    (h : executing l.buf = some req) : executing (call mover l arrived).buf = some req := by
  have hno : ∀ q : Seqnum, ¬req.seqEnd < q := by
    intro q hlt
    have hlt' : req.seqEnd.toNat < q.toNat := hlt
    rw [hmax] at hlt'
    have := q.isLt
    have hones : (allOnes 32).toNat = 2^32-1 := rfl
    omega
  show executing (retransStep l.buf l.gbnRetransReq.head? (see arrived l.rdData)).1 = some req
  unfold executing at h
  unfold retransStep
  cases hst : l.buf.retrans with
  | recvReq => simp [hst] at h
  | readLen r q | retransHeader r q =>
    rw [hst] at h
    cases see arrived l.rdData <;> exact h
  | retransPayload r q =>
    have hr : r = req := by simpa [hst] using h
    subst hr
    cases see arrived l.rdData with
    | none => simp [executing,hst]
    | some beat =>
      simp only [UnackedBuffer.retransPayload,hno,if_false]
      split_ifs <;> simp [executing,hst]

lemma run_never_idle (mover : Mover) (hmax : req.seqEnd = allOnes 32)
    (pacing : List Bool) (l : Loop)
    (h : executing l.buf = some req) : executing (runTotal (call mover) pacing l).buf = some req :=
  foldlRecOn pacing (call mover) (motive := fun l => executing l.buf = some req) h
    fun l hl arrived _ => never_idle hmax l arrived hl

end

/-- Exactly the range is sent, in order, unless it ends with the largest number. -/
theorem range_sent_iff (mover : Mover) (b : BufState) (req : RetransReq)
    (hle : req.seqStart ≤ req.seqEnd) :
    (∀ pacing : List Bool, 1+cost mover req (seqs req) ≤ pacing.count true →
        runTotal (call mover) pacing (start b req) = finished mover b req) ↔
      req.seqEnd ≠ allOnes 32 := by
  constructor
  · intro h hmax
    have hrun := h (true::List.replicate (cost mover req (seqs req)) true) (by simp; omega)
    have hlt : ¬req.seqEnd < req.seqStart := BitVec.not_lt.mpr hle
    have hfirst : executing (call mover (start b req) true).buf = some req := by
      simp [call,start,retransStep,hlt,executing]
    have hbusy := run_never_idle mover hmax
      (List.replicate (cost mover req (seqs req)) true) _ hfirst
    have hidle : executing (runTotal (call mover)
        (true::List.replicate (cost mover req (seqs req)) true) (start b req)).buf = none := by
      rw [hrun]
      rfl
    rw [runTotal,foldl_cons] at hidle
    exact absurd (hbusy.symm.trans hidle) (Option.some_ne_none _)
  · intro hmax pacing hcount
    obtain ⟨m,hm,hle'⟩ := run_progress hle hmax pacing (.request : Progress mover b req _ _)
    obtain rfl : m = 0 := by omega
    exact progress_done hm

def shortPackets : Mover :=
  ⟨fun _ => ⟨leBytes 8 16,true⟩,fun _ => [⟨leBytes 8 0,true⟩],fun _ => rfl⟩

/-- Packets 5 and 6 of slot 1. -/
theorem two_packets_sent :
    runTotal (call shortPackets) [true,false,true,true,false,true,true,true,true]
        (start UnackedBuffer.powerUp ⟨1,5,6⟩) =
      finished shortPackets UnackedBuffer.powerUp ⟨1,5,6⟩ :=
  (range_sent_iff shortPackets UnackedBuffer.powerUp ⟨1,5,6⟩ (by decide)).mpr (by decide) _
    (by decide)

/-- The last number alone: after its packet the machine goes on with number 0. -/
theorem last_range_never_ends :
    (⟨1,allOnes 32,allOnes 32⟩ : RetransReq).seqStart ≤ allOnes 32 ∧
    (runTotal (call shortPackets) (List.replicate 8 true)
      (start UnackedBuffer.powerUp ⟨1,allOnes 32,allOnes 32⟩)).buf.retrans =
        .retransHeader ⟨1,allOnes 32,allOnes 32⟩ 1 ∧
    (runTotal (call shortPackets) (List.replicate 8 true)
      (start UnackedBuffer.powerUp ⟨1,allOnes 32,allOnes 32⟩)).rtHeader.length = 2 :=
  ⟨by decide,by decide +kernel,by decide +kernel⟩

end Clio.RetransLoop
