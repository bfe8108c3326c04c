import Clio.WriteData

/-!
# Byte enables of the writes

The last beat of a write carries a mask of the bytes that belong to it.
-/

namespace Clio.WriteStrobes

open List CoreMemTypes MemoryAccess PacketParser WriteData

def sizeCmd (len : BitVec 16) : BitVec 64 :=
  let low := len.setWidth 6
  let lenFull := if low = 0 then 64 else low.toNat
  (1#128 <<< lenFull-1#128).setWidth 64

/-- The low `n` bits. -/
def lowBits (n : ℕ) : BitVec 64 := BitVec.ofNat 64 (2^n-1)

/-- A beat with its mask, the masks taken before it, and whether one was waiting. -/
structure Shown where
  beat : Data
  tkeep : BitVec 64
  taken : ℕ
  waiting : Bool
  deriving DecidableEq, Repr

/-- The masks `queued` and `taken`; beats `written` and not `shown` wait for the DMA. -/
structure State where
  path : WriteData.State
  queued : ℕ
  taken : ℕ
  shown : List Shown

inductive Action where
  | path (act : WriteData.Action)
  | size
  | present (stale : BitVec 64)

/-- `filteredData.lastFire` -/
def lastFire (s : WriteData.State) (act : WriteData.Action) : Bool :=
  match act, s.wrDataSignal, s.parser.outs with
  | .filter, true::_, o::_ => o.last
  | _, _, _ => false

def front (s : State) (stale : BitVec 64) : BitVec 64 :=
  if s.taken < s.queued then (s.path.wrCmd[s.taken]?).elim stale fun cmd => sizeCmd cmd.len
  else stale

def exec (s : State) : Action → State
  | .path act => { s with
      path := WriteData.exec s.path act
      taken := if lastFire s.path act = true ∧ s.taken < s.queued then s.taken+1 else s.taken }
  | .size => { s with
      queued := if s.queued < s.path.wrCmd.length then s.queued+1 else s.queued }
  | .present stale =>
      match s.path.written[s.shown.length]? with
      | none => s
      | some o => { s with
          shown := s.shown++[⟨o,if o.last then front s stale else BitVec.allOnes 64,s.taken,
            decide (s.taken < s.queued)⟩] }

def start (as : List Access) : State := ⟨WriteData.start as,0,0,[]⟩

def run (acts : List Action) (s : State) : State := acts.foldl exec s

lemma low_bits_inj {m n : ℕ} (hm : m ≤ 64) (hn : n ≤ 64) (h : lowBits m = lowBits n) : m = n := by
  have hpow : ∀ k, k ≤ 64 → 2^k-1 < 2^64 := by
    intro k hk
    have := Nat.pow_le_pow_right (show 0 < 2 by decide) hk
    have := Nat.two_pow_pos k
    omega
  have hval := congrArg BitVec.toNat h
  rw [lowBits,lowBits,BitVec.toNat_ofNat,BitVec.toNat_ofNat,Nat.mod_eq_of_lt (hpow m hm),
    Nat.mod_eq_of_lt (hpow n hn)] at hval
  have hm' := Nat.two_pow_pos m
  have hn' := Nat.two_pow_pos n
  exact Nat.pow_right_injective (le_refl 2) (by dsimp only; omega)

lemma size_cmd_eq (len : BitVec 16) (hpos : 1 ≤ len.toNat) :
    sizeCmd len = lowBits ((len.toNat-1)%64+1) := by
  have hlow : (len.setWidth 6).toNat = len.toNat%64 := BitVec.toNat_setWidth 6 len
  have hfull : (if len.setWidth 6 = 0 then 64 else (len.setWidth 6).toNat) =
      (len.toNat-1)%64+1 := by
    split_ifs with hzero
    · have hval := congrArg BitVec.toNat hzero
      rw [hlow] at hval
      change len.toNat%64 = 0 at hval
      omega
    · have hne : len.toNat%64 ≠ 0 := by
        intro h
        exact hzero (BitVec.eq_of_toNat_eq (hlow.trans h))
      rw [hlow]
      omega
  have hbound : (len.toNat-1)%64+1 ≤ 64 := Nat.succ_le_of_lt (Nat.mod_lt _ (by decide))
  rw [sizeCmd,hfull]
  generalize (len.toNat-1)%64+1 = n at hbound
  have hle : 2^n ≤ 2^64 := Nat.pow_le_pow_right (by decide) hbound
  have hone := Nat.two_pow_pos n
  apply BitVec.eq_of_toNat_eq
  rw [lowBits,BitVec.toNat_setWidth,BitVec.toNat_sub,BitVec.toNat_shiftLeft,BitVec.toNat_ofNat,
    BitVec.toNat_ofNat,Nat.shiftLeft_eq]
  have hsmall : 1%2^128*2^n%2^128 = 2^n := by
    rw [Nat.mod_eq_of_lt (show 1 < 2^128 by decide),Nat.one_mul]
    exact Nat.mod_eq_of_lt (by omega)
  rw [hsmall,Nat.mod_eq_of_lt (show 1 < 2^128 by decide)]
  congr 1
  omega

lemma size_cmd_iff (len len' : BitVec 16) (hpos : 1 ≤ len.toNat) (hpos' : 1 ≤ len'.toNat) :
    sizeCmd len = lowBits ((len'.toNat-1)%64+1) ↔ len.toNat%64 = len'.toNat%64 := by
  rw [size_cmd_eq len hpos]
  constructor
  · intro h
    have := low_bits_inj (Nat.succ_le_of_lt (Nat.mod_lt _ (by decide)))
      (Nat.succ_le_of_lt (Nat.mod_lt _ (by decide))) h
    omega
  · intro h
    congr 1
    omega

structure Inv (as : List Access) (s : State) : Prop where
  path : WriteData.Inv as s.path
  queued : s.queued ≤ s.path.wrCmd.length
  beats : s.shown.map Shown.beat <+: s.path.written
  masks : ∀ x ∈ s.shown, (x.beat.last = false → x.tkeep = BitVec.allOnes 64) ∧
    (x.beat.last = true → x.waiting = true → ∃ cmd, s.path.wrCmd[x.taken]? = some cmd ∧
      x.tkeep = sizeCmd cmd.len)

lemma path_grows (s : WriteData.State) (act : WriteData.Action) :
    s.wrCmd <+: (WriteData.exec s act).wrCmd ∧ s.written <+: (WriteData.exec s act).written := by
  cases act with
  | cycle offer ready => exact ⟨prefix_rfl,prefix_rfl⟩
  | header =>
    cases hq : s.headers with
    | nil | cons a rest => simp [WriteData.exec,hq]
  | join =>
    cases hq : s.headerIn with
    | nil | cons a rest => simp [WriteData.exec,hq]
  | filter =>
    cases hsig : s.wrDataSignal with
    | nil => simp [WriteData.exec,hsig]
    | cons signal signals =>
      cases hout : s.parser.outs with
      | nil => simp [WriteData.exec,hsig,hout]
      | cons o outs => cases signal <;> simp [WriteData.exec,hsig,hout]

variable (as : List Access)

lemma path_inv (s : State) (act : WriteData.Action) (hs : Inv as s) :
    Inv as (exec s (.path act)) := by
  obtain ⟨hcmd,hwritten⟩ := path_grows s.path act
  refine ⟨WriteData.step_inv as s.path act hs.path,hs.queued.trans hcmd.length_le,
    hs.beats.trans hwritten,fun x hx => ⟨(hs.masks x hx).1,fun hlast hwait => ?_⟩⟩
  obtain ⟨cmd,hget,hkeep⟩ := (hs.masks x hx).2 hlast hwait
  obtain ⟨hlt,rfl⟩ := List.getElem?_eq_some_iff.mp hget
  exact ⟨_,List.prefix_iff_getElem?.mp hcmd _ hlt,hkeep⟩

lemma present_inv (s : State) (stale : BitVec 64) (hs : Inv as s) :
    Inv as (exec s (.present stale)) := by
  cases hbeat : s.path.written[s.shown.length]? with
  | none => simpa [exec,hbeat] using hs
  | some o =>
    simp only [exec,hbeat]
    refine ⟨hs.path,hs.queued,?_,?_⟩
    · obtain ⟨rest,hrest⟩ := hs.beats
      rw [← hrest,List.getElem?_append_right (by simp),length_map,Nat.sub_self] at hbeat
      cases rest with
      | nil => cases hbeat
      | cons o' rest =>
        cases hbeat
        exact ⟨rest,by simp [← hrest]⟩
    · intro x hx
      rcases mem_append.mp hx with hx | hx
      · exact hs.masks x hx
      · obtain rfl := mem_singleton.mp hx
        refine ⟨fun hlast => ?_,fun hlast hwait => ?_⟩
        · simp only at hlast
          simp [hlast]
        · simp only [decide_eq_true_eq] at hlast hwait
          have hlt : s.taken < s.path.wrCmd.length := Nat.lt_of_lt_of_le hwait hs.queued
          refine ⟨_,List.getElem?_eq_getElem hlt,?_⟩
          simp [hlast,front,hwait,List.getElem?_eq_getElem hlt]

lemma step_inv (s : State) (act : Action) (hs : Inv as s) : Inv as (exec s act) := by
  cases act with
  | path act => exact path_inv as s act hs
  | size =>
    refine ⟨hs.path,?_,hs.beats,hs.masks⟩
    simp only [exec]
    have := hs.queued
    split_ifs <;> omega
  | present stale => exact present_inv as s stale hs

lemma run_inv (acts : List Action) (s : State) (hs : Inv as s) : Inv as (run acts s) := by
  induction acts generalizing s with
  | nil => exact hs
  | cons act acts ih => exact ih (exec s act) (step_inv as s act hs)

def lasts (xs : List Shown) : ℕ := xs.countP fun x => x.beat.last

lemma marked_position {α : Type} (block : α → List Data) (bs : List α)
    (h : ∀ b ∈ bs, Marked Out.last (block b)) (pre : List Data) (x : Data) (post : List Data)
    (hpre : pre++x::post <+: bs.flatMap block) :
    ∃ b, bs[pre.countP fun o => o.last]? = some b ∧ x ∈ block b := by
  induction bs generalizing pre with
  | nil =>
    rw [flatMap_nil,prefix_nil] at hpre
    simp at hpre
  | cons b bs ih =>
    obtain ⟨front,o,hblock,hlast,hfront⟩ := h b (by simp)
    obtain ⟨rest,hrest⟩ := hpre
    rw [flatMap_cons,append_assoc] at hrest
    have hcount : ∀ xs : List Data, (∀ y ∈ xs, y ∈ front) → xs.countP (fun o => o.last) = 0 := by
      intro xs hxs
      rw [countP_eq_zero]
      intro y hy
      simp [hfront y (hxs y hy)]
    by_cases hlen : pre.length < (block b).length
    · -- the beat is in the first packet
      have hx : (block b)[pre.length]? = some x := by
        have hget := congrArg (fun l => l[pre.length]?) hrest
        simpa [List.getElem?_append_left hlen] using hget.symm
      have hin : pre <+: block b := by
        have hp : pre <+: block b++bs.flatMap block := ⟨_,hrest⟩
        exact prefix_of_prefix_length_le hp (prefix_append _ _) (Nat.le_of_lt hlen)
      have hzero : pre.countP (fun o => o.last) = 0 := by
        refine hcount pre fun y hy => ?_
        have hp : pre <+: front := by
          rw [hblock] at hin hlen
          refine prefix_of_prefix_length_le hin (prefix_append _ _) ?_
          simpa [Nat.lt_succ_iff] using hlen
        exact hp.subset hy
      refine ⟨b,by rw [hzero]; rfl,mem_of_getElem? hx⟩
    · -- the first packet is passed
      obtain ⟨pre',rfl⟩ : ∃ pre', pre = block b++pre' := by
        have hall : pre <+: block b++bs.flatMap block := ⟨_,hrest⟩
        have hp : block b <+: pre :=
          prefix_of_prefix_length_le (prefix_append _ _) hall (Nat.not_lt.mp hlen)
        obtain ⟨pre',hpre'⟩ := hp
        exact ⟨pre',hpre'.symm⟩
      have hone : (block b).countP (fun o => o.last) = 1 := by
        rw [hblock,countP_append,hcount front (fun _ hy => hy)]
        simp [hlast]
      have hrest' : pre'++x::(post++rest) = bs.flatMap block := by
        rw [append_assoc] at hrest
        exact append_cancel_left hrest
      obtain ⟨c,hget,hmem⟩ := ih (fun c hc => h c (by simp [hc])) pre' ⟨rest,by simp [← hrest']⟩
      refine ⟨c,?_,hmem⟩
      rw [countP_append,hone,Nat.add_comm,List.getElem?_cons_succ]
      exact hget

def lenOf (a : Access) : ℕ := (assignFromJoin a.pte a.header).len.toNat

/-- The last beat gets the front mask, its own exactly when the lengths agree modulo 64. -/
theorem last_beat_mask_iff (as : List Access) (h : ∀ a ∈ as, Proper a)
    (hlen : ∀ a ∈ okWrites as, 1 ≤ lenOf a) (acts : List Action) (pre : List Shown) (x : Shown)
    (post : List Shown) (hshown : (run acts (start as)).shown = pre++x::post) :
    ∃ a, (okWrites as)[lasts pre]? = some a ∧ x.beat ∈ payload accessFormat a.packet ∧
      (x.beat.last = false → x.tkeep = BitVec.allOnes 64) ∧
      (x.beat.last = true → x.waiting = true → ∃ c, (okWrites as)[x.taken]? = some c ∧
        (x.tkeep = lowBits ((lenOf a-1)%64+1) ↔ lenOf c%64 = lenOf a%64)) := by
  have hinit : Inv as (start as) :=
    ⟨WriteData.start_inv as h,Nat.zero_le _, nil_prefix,fun x hx => by cases hx⟩
  have hinv := run_inv as acts (start as) hinit
  obtain ⟨hwritten,hcmds⟩ := inv_prefixes as h _ hinv.path
  have hbeats := hinv.beats.trans hwritten
  rw [hshown,map_append,map_cons] at hbeats
  obtain ⟨a,ha,hmem⟩ := marked_position _ (okWrites as) (ok_write_marked as h) _ _ _ hbeats
  rw [countP_map] at ha
  obtain ⟨hother,hmask⟩ := hinv.masks x (by rw [hshown]; simp)
  refine ⟨a,ha,hmem,hother,fun hlast hwait => ?_⟩
  obtain ⟨cmd,hcmd,hkeep⟩ := hmask hlast hwait
  obtain ⟨hlt,rfl⟩ := List.getElem?_eq_some_iff.mp hcmd
  have hget := List.prefix_iff_getElem?.mp hcmds _ hlt
  rw [List.getElem?_map,Option.map_eq_some_iff] at hget
  obtain ⟨c,hc,hjoin⟩ := hget
  refine ⟨c,hc,?_⟩
  rw [hkeep,← hjoin]
  exact size_cmd_iff _ _ (hlen c (mem_of_getElem? hc)) (hlen a (mem_of_getElem? ha))

def lateSize : List Action :=
  [.path (.cycle true true), .path .header, .path .join, .path .filter, .size, .present 0]

def lateBeat : Shown :=
  ⟨(payload accessFormat (oneWrite 36 true).packet).headD
    ⟨(oneWrite 36 true).packet,0,none,false⟩,lowBits 36,0,true⟩

theorem late_mask_right :
    (run lateSize (start [oneWrite 36 true])).shown = [lateBeat] ∧
      lateBeat.tkeep = lowBits ((lenOf (oneWrite 36 true)-1)%64+1) := by
  have hshown : (run lateSize (start [oneWrite 36 true])).shown = []++lateBeat::[] := by
    decide +kernel
  have hproper : ∀ a ∈ [oneWrite 36 true], Proper a := by
    intro a ha
    obtain rfl := mem_singleton.mp ha
    exact ⟨by decide +kernel,by decide +kernel,by decide +kernel⟩
  have hwrites : okWrites [oneWrite 36 true] = [oneWrite 36 true] := by decide +kernel
  have hlen : ∀ a ∈ okWrites [oneWrite 36 true], 1 ≤ lenOf a := by
    rw [hwrites]
    intro a ha
    obtain rfl := mem_singleton.mp ha
    decide +kernel
  obtain ⟨a,ha,-,-,hmask⟩ := last_beat_mask_iff _ hproper hlen lateSize [] lateBeat [] hshown
  obtain ⟨c,hc,hiff⟩ := hmask (by decide +kernel) rfl
  rw [hwrites] at ha hc
  obtain rfl : oneWrite 36 true = a := Option.some.inj ha
  obtain rfl : oneWrite 36 true = c := Option.some.inj hc
  exact ⟨hshown,hiff.mpr rfl⟩

def longWrite : Access :=
  ⟨⟨BitVec.ofNat 512 (0x50*2^24+128*2^48+100*2^192),[0]⟩,{ emptyPte with used := true }⟩

/-- The DMA takes nothing before the second write is there. -/
def stalledDma : List Action :=
  [.path (.cycle true true), .path .header, .path .join, .size, .path (.cycle true true),
    .path (.cycle true true), .path .filter, .path .filter, .path (.cycle true true),
    .path .header, .path .join, .size, .present 0, .present 0]

def emptyQueue : List Action :=
  [.path (.cycle true true), .path .header, .path .join, .size, .path (.cycle true true),
    .path (.cycle true true), .path .filter, .path .filter, .present 0, .present 0]

/-- The last beat of 36 bytes is presented with the mask of the next write. -/
theorem mask_of_next_write :
    (∀ a ∈ [longWrite, oneWrite 20 true], Proper a) ∧
    okWrites [longWrite, oneWrite 20 true] = [longWrite, oneWrite 20 true] ∧
    (lenOf longWrite-1)%64+1 = 36 ∧
    ((run stalledDma (start [longWrite, oneWrite 20 true])).shown.map fun x =>
      (x.beat.last,x.tkeep)) = [(false,BitVec.allOnes 64),(true,lowBits 20)] ∧
    ((run emptyQueue (start [longWrite, oneWrite 20 true])).shown.map fun x =>
      (x.beat.last,x.tkeep)) = [(false,BitVec.allOnes 64),(true,0)] := by
  refine ⟨?_,by decide +kernel,by decide +kernel,by decide +kernel,by decide +kernel⟩
  intro a ha
  simp only [mem_cons,not_mem_nil,or_false] at ha
  rcases ha with rfl | rfl
  · exact ⟨by decide +kernel,by decide +kernel,by decide +kernel⟩
  · exact ⟨by decide +kernel,by decide +kernel,by decide +kernel⟩

end Clio.WriteStrobes
