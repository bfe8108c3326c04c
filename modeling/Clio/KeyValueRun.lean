import Clio.KeyValueStore
import Clio.Machine

/-!
# Runs of the key-value store

The values a user sees are those last written or updated.
-/

namespace Clio.KeyValueRun

open List Function

open UnackedBuffer Memory Machine KeyValueEngine KeyValueLine KeyValueChain KeyValueServe
open KeyValueStore

abbrev Values := Key → Option (List Byte)

/-- The value last written or updated for each key. A delete leaves it, as no entry is cleared. -/
def apply (values : Values) (r : Request) : Values :=
  match r.cmd with
  | .write => update values r.key (some r.value)
  | .update => if (values r.key).isSome then update values r.key (some r.value) else values
  | _ => values

variable (A : Allocator) (hash : Key → Hash)

structure Represents (mem : ℕ → Byte) (n : ℕ) (chain : Chains) (blocks : Key → Option ℕ)
    (values : Values) : Prop where
  stored : Stored A hash mem n chain blocks
  present : ∀ k, (values k).isSome = (blocks k).isSome
  value : ∀ k m v, blocks k = some m → values k = some v →
    v.length+8 ≤ A.room m ∧ load mem ((A.block m).toNat+8) v.length = v

section

variable {A hash} {mem : ℕ → Byte} {n : ℕ} {chain : Chains} {blocks : Key → Option ℕ}
  {values : Values}

section

variable (hrep : Represents A hash mem n chain blocks values)
include hrep

lemma Represents.some (k : Key) (v : List Byte) (hv : values k = some v) :
    ∃ m, blocks k = some m := by
  have := hrep.present k
  rw [hv] at this
  exact Option.isSome_iff_exists.mp this.symm

lemma Represents.none (k : Key) :
    values k = none ↔ blocks k = none := by
  have := hrep.present k
  rw [← Option.not_isSome_iff_eq_none,← Option.not_isSome_iff_eq_none,this]

lemma represents_write (r : Request) (hnew : blocks r.key = none)
    (hlen : r.value.length = r.valueSize.toNat) (hn : n < A.count)
    (hroom : r.valueSize.toNat+8 ≤ A.room n) (mem' : ℕ → Byte) (n' : ℕ) (chain' : Chains)
    (hins : Inserted A hash mem n chain r mem' n' chain') :
    Represents A hash mem' n' chain' (update blocks r.key (some n))
      (update values r.key (some r.value)) := by
  have hst := stored_insert hrep.stored r hnew hn mem' n' chain' hins
  refine ⟨hst,?_,?_⟩
  · intro k
    by_cases hk : k = r.key
    · simp [hk]
    · rw [update_of_ne hk,update_of_ne hk,hrep.present]
  · intro k m v hm hv
    by_cases hk : k = r.key
    · subst hk
      rw [update_self] at hm hv
      cases hm
      cases hv
      have hdata := hins.data
      rw [take_of_length_le (by omega),load_add] at hdata
      have hfirst : (load mem' (A.block n).toNat 8).length = (leBytes 8 r.key.toNat).length := by
        rw [length_load,length_le_bytes]
      exact ⟨by omega,append_inj_right hdata hfirst⟩
    · rw [update_of_ne hk] at hm hv
      obtain ⟨hfit,hload⟩ := hrep.value k m v hm hv
      obtain ⟨hlt,hent,-⟩ := hrep.stored.entered k m hm
      refine ⟨hfit,?_⟩
      rw [hins.kept m hlt (hent.out hrep.stored.shape) 8 v.length (by omega),hload]

lemma represents_found (r : Request) (hr : r.cmd ≠ .write) (m : ℕ) (hm : blocks r.key = some m)
    (mem' : ℕ → Byte) (hfound : Found A mem n chain r m mem')
    (hfit : r.cmd = .update → r.value.length = r.valueSize.toNat ∧ r.valueSize.toNat+8 ≤ A.room m) :
    Represents A hash mem' n chain blocks (apply values r) := by
  have hst := stored_found hrep.stored r m mem' hfound
  -- another key has another block
  have hother : ∀ k l v, k ≠ r.key → blocks k = some l → values k = some v →
      v.length+8 ≤ A.room l ∧ load mem' ((A.block l).toNat+8) v.length = v := by
    intro k l v hk hl hv
    obtain ⟨hfit',hload⟩ := hrep.value k l v hl hv
    obtain ⟨hlt,hent,hkey⟩ := hrep.stored.entered k l hl
    have hne : l ≠ m := by
      rintro rfl
      exact hk (hkey.symm.trans (hrep.stored.entered _ l hm).2.2)
    refine ⟨hfit',?_⟩
    rw [hfound.kept l hlt (hent.out hrep.stored.shape) (fun _ => hne) 8 v.length (by omega),hload]
  by_cases hu : r.cmd = .update
  · obtain ⟨hlen,hroom⟩ := hfit hu
    have hsome : (values r.key).isSome = true := by rw [hrep.present,hm]; rfl
    rw [apply,hu]
    dsimp only
    rw [if_pos hsome]
    refine ⟨hst,?_,?_⟩
    · intro k
      by_cases hk : k = r.key
      · simp [hk,hm]
      · rw [update_of_ne hk,hrep.present]
    · intro k l v hl hv
      by_cases hk : k = r.key
      · subst hk
        rw [update_self] at hv
        cases hv
        have hml : l = m := Option.some.inj (hl.symm.trans hm)
        have hdata := hfound.data hu
        rw [take_of_length_le (by omega)] at hdata
        rw [hml]
        exact ⟨by omega,hdata⟩
      · rw [update_of_ne hk] at hv
        exact hother k l v hk hl hv
  · have happly : apply values r = values := by
      unfold apply
      cases hc : r.cmd <;> simp_all
    rw [happly]
    refine ⟨hst,hrep.present,?_⟩
    intro k l v hl hv
    by_cases hk : k = r.key
    · subst hk
      obtain ⟨hlt,hent,-⟩ := hrep.stored.entered _ l hl
      obtain ⟨hfit',hload⟩ := hrep.value _ l v hl hv
      refine ⟨hfit',?_⟩
      rw [hfound.kept l hlt (hent.out hrep.stored.shape) (fun h => absurd h hu) 8 v.length
        (by omega),hload]
    · exact hother k l v hk hl hv

end

end

/-- No line of the table has a valid entry. -/
def Clear (mem : ℕ → Byte) : Prop :=
  ∀ h : Hash, ∀ i < 8, (entryAt mem (h.toNat*64) i).valid = false

lemma clear_shape (mem : ℕ → Byte) (hclear : Clear mem) :
    Shape A mem 0 (fun h => [h.toNat*64]) where
  head _ := rfl
  linked h := hclear h 7 (by omega)
  nodup _ := List.nodup_singleton _
  apart h g b hh hg := by
    have hhb := mem_singleton.mp hh
    have hgb := mem_singleton.mp hg
    apply BitVec.eq_of_toNat_eq
    omega
  place h b hb := .inl (mem_singleton.mp hb)
  pointer h b hb i hi hv := by
    rw [mem_singleton.mp hb,hclear h i (by omega)] at hv
    cases hv
  digest h b hb i hi hv := by
    rw [mem_singleton.mp hb,hclear h i (by omega)] at hv
    cases hv
  length _ := Nat.le_refl 1
  count := Nat.zero_le _

lemma clear_stored (mem : ℕ → Byte) (hclear : Clear mem) :
    Stored A hash mem 0 (fun h => [h.toNat*64]) (fun _ => none) where
  shape := clear_shape A mem hclear
  single h g b c i j hb hc hi hj hvb := by
    rw [mem_singleton.mp hb,hclear h i (by omega)] at hvb
    cases hvb
  entered k m hm := by cases hm
  only h m hm := absurd hm (Nat.not_lt_zero m)

lemma clear_represents (mem : ℕ → Byte) (hclear : Clear mem) :
    Represents A hash mem 0 (fun h => [h.toNat*64]) (fun _ => none) (fun _ => none) where
  stored := clear_stored A hash mem hclear
  present _ := rfl
  value k m v hm := by cases hm

def exec (e : Engine) (r : Request) : Option Engine := some (handle A hash e r).1

/-- The size field has 16 bits and counts the header, the key and the value. -/
def Carried (r : Request) : Prop :=
  r.value.length = r.valueSize.toNat ∧ 20+8+r.valueSize.toNat < 2^16

def Blank (e : Engine) : Prop :=
  e.allocs+1 < A.count ∧ ∀ i < 8, (entryAt e.mem (A.block (e.allocs+1)).toNat i).valid = false

instance (e : Engine) : Decidable (Blank A e) := inferInstanceAs (Decidable (_ ∧ _))

def Granted (e : Engine) (r : Request) : Prop :=
  Blank A e ∧ r.valueSize.toNat+8 ≤ A.room e.allocs

instance (e : Engine) (r : Request) : Decidable (Granted A e r) :=
  inferInstanceAs (Decidable (_ ∧ _))

section

variable {A hash}

variable (ws : List Request)

lemma writes_represent (hws : ∀ w ∈ ws, w.cmd = .write ∧ Carried w)
    (hkeys : (ws.map Request.key).Nodup) {mem : ℕ → Byte} {n : ℕ} {chain : Chains}
    {blocks : Key → Option ℕ} {values : Values} (hrep : Represents A hash mem n chain blocks values)
    (hnew : ∀ w ∈ ws, values w.key = none)
    (hgrant : Guarded (exec A hash) (Granted A) ws (idle mem n)) :
    ∃ mem' n' chain' blocks', run (exec A hash) ws (idle mem n) = some (idle mem' n') ∧
      Represents A hash mem' n' chain' blocks' (ws.foldl apply values) := by
  induction ws generalizing mem n chain blocks values with
  | nil => exact ⟨mem,n,chain,blocks,rfl,hrep⟩
  | cons w ws ih =>
    obtain ⟨hcmd,hlen,hsize⟩ := hws w (by simp)
    obtain ⟨⟨⟨hcount,hzero⟩,hroom⟩,hrest⟩ := hgrant
    have hnone := (hrep.none w.key).mp (hnew w (by simp))
    obtain ⟨mem',n',chain',hout,hins⟩ := @handle_write A hash _ _ _ hrep.stored.shape w hcmd
      hcount hzero (by omega) hroom
    have hrep' := represents_write hrep w hnone hlen (Nat.lt_of_succ_lt hcount) hroom mem' n' chain'
      hins
    have hexec : exec A hash (idle mem n) w = some (idle mem' n') := by rw [exec,hout]
    rw [hexec] at hrest
    have happly : apply values w = update values w.key (some w.value) := by
      rw [apply,hcmd]
    obtain ⟨hfirst,hnodup⟩ := nodup_cons.mp hkeys
    rw [← happly] at hrep'
    obtain ⟨mem2,n2,chain2,blocks2,hrun,hrep2⟩ := ih (fun x hx => hws x (by simp [hx])) hnodup hrep'
      (by
        intro x hx
        have hne : x.key ≠ w.key := by
          intro heq
          exact hfirst (heq ▸ mem_map_of_mem hx)
        rw [happly,update_of_ne hne]
        exact hnew x (by simp [hx])) hrest
    refine ⟨mem2,n2,chain2,blocks2,?_,hrep2⟩
    rw [run,hexec,Option.bind_some,hrun]

lemma applied_other (hws : ∀ w ∈ ws, w.cmd = .write) (values : Values) (k : Key)
    (hk : ∀ w ∈ ws, w.key ≠ k) : ws.foldl apply values k = values k := by
  induction ws generalizing values with
  | nil => rfl
  | cons w ws ih =>
    rw [foldl_cons,ih (fun x hx => hws x (by simp [hx])) _ (fun x hx => hk x (by simp [hx])),
      apply,hws w (by simp)]
    exact update_of_ne (hk w (by simp)).symm _ _

lemma applied_written (hws : ∀ w ∈ ws, w.cmd = .write) (hkeys : (ws.map Request.key).Nodup)
    (values : Values) (w : Request) (hw : w ∈ ws) : ws.foldl apply values w.key = some w.value := by
  induction ws generalizing values with
  | nil => cases hw
  | cons x ws ih =>
    obtain ⟨hfirst,hnodup⟩ := nodup_cons.mp hkeys
    rw [foldl_cons]
    rcases mem_cons.mp hw with rfl | hw
    · have hother : ∀ y ∈ ws, y.key ≠ w.key := fun y hy heq => hfirst (heq ▸ mem_map_of_mem hy)
      rw [applied_other ws (fun y hy => hws y (by simp [hy])) _ _ hother,apply,hws w (by simp)]
      exact update_self ..
    · exact ih (fun y hy => hws y (by simp [hy])) hnodup _ hw

section

variable {mem : ℕ → Byte} {n : ℕ} {chain : Chains} {blocks : Key → Option ℕ} {values : Values}
  (hrep : Represents A hash mem n chain blocks values) (r : Request) (hr : r.cmd = .read)
include mem n chain blocks values hrep r hr

lemma read_value (v : List Byte) (hv : values r.key = some v)
    (hlen : r.valueSize.toNat = v.length) (hsize : r.valueSize.toNat+8 < 2^16) :
    (handle A hash (idle mem n) r).2.replies = [⟨r.id,true⟩] ∧
      (handle A hash (idle mem n) r).2.packets.flatten = v := by
  obtain ⟨m,hm⟩ := hrep.some r.key v hv
  obtain ⟨-,hload⟩ := hrep.value r.key m v hm hv
  obtain ⟨signals,accesses,mem',-,-,-,hout⟩ := handle_found hrep.stored r (by simp [hr]) m hm []
    (fun _ => rfl) (fun h => by rw [hr] at h; cases h)
  rw [idle,hout]
  refine ⟨rfl,?_⟩
  have hkv := kv_size r.valueSize hsize
  dsimp only
  by_cases hzero : v.length = 0
  · have hno : ¬(8 : BitVec 16) < r.valueSize+8 := by
      rw [BitVec.lt_def,hkv,show (8 : BitVec 16).toNat = 8 from rfl]
      omega
    rw [if_neg (fun h => hno h.2),eq_nil_of_length_eq_zero hzero]
    rfl
  · have hyes : (8 : BitVec 16) < r.valueSize+8 := by
      rw [BitVec.lt_def,hkv,show (8 : BitVec 16).toNat = 8 from rfl]
      omega
    rw [if_pos ⟨hr,hyes⟩,hkv,Nat.add_sub_cancel,hlen,hload]
    simp

lemma read_absent (hv : values r.key = none) :
    (handle A hash (idle mem n) r).2.replies = [⟨r.id,false⟩] ∧
      (handle A hash (idle mem n) r).2.packets = [] := by
  obtain ⟨signals,accesses,-,-,hout⟩ := handle_absent hrep.stored r (by simp [hr])
    ((hrep.none r.key).mp hv) [] (fun _ => rfl)
  rw [idle,hout]
  exact ⟨rfl,rfl⟩

lemma read_kept (hasks : (8 : BitVec 16) < r.valueSize+8) : ∃ mem',
    exec A hash (idle mem n) r = some (idle mem' n) ∧
      Represents A hash mem' n chain blocks values := by
  have hcmd : r.cmd ≠ .write := by simp [hr]
  cases hk : blocks r.key with
  | none =>
    obtain ⟨signals,accesses,hready,-,hout⟩ := handle_absent hrep.stored r hcmd hk [] (fun _ => rfl)
    refine ⟨mem,?_,hrep⟩
    rw [exec,idle,hout,hready fun _ => hasks]
  | some m =>
    obtain ⟨signals,accesses,mem',hready,-,hfound,hout⟩ := handle_found hrep.stored r hcmd m hk []
      (fun _ => rfl) (by simp [hr])
    have hrep' := represents_found hrep r hcmd m hk mem' hfound (by simp [hr])
    rw [apply,hr] at hrep'
    refine ⟨mem',?_,hrep'⟩
    rw [exec,idle,hout,hready fun _ => hasks]
    rfl

end

lemma reads_kept (rds : List Request)
    (hrds : ∀ x ∈ rds, x.cmd = .read ∧ (8 : BitVec 16) < x.valueSize+8) {mem : ℕ → Byte} {n : ℕ}
    {chain : Chains} {blocks : Key → Option ℕ} {values : Values}
    (hrep : Represents A hash mem n chain blocks values) : ∃ mem',
    run (exec A hash) rds (idle mem n) = some (idle mem' n) ∧
      Represents A hash mem' n chain blocks values := by
  induction rds generalizing mem with
  | nil => exact ⟨mem,rfl,hrep⟩
  | cons x rds ih =>
    obtain ⟨hx,hasks⟩ := hrds x (by simp)
    obtain ⟨mem1,hexec,hrep1⟩ := read_kept hrep x hx hasks
    obtain ⟨mem2,hrun,hrep2⟩ := ih (fun y hy => hrds y (by simp [hy])) hrep1
    exact ⟨mem2,by rw [run,hexec,Option.bind_some,hrun],hrep2⟩

end

/-- However the hashes collide, a read behind any reads that ask for bytes finds what was written
under its key. -/
theorem written_then_read (mem : ℕ → Byte) (hclear : Clear mem) (ws : List Request)
    (hws : ∀ w ∈ ws, w.cmd = .write ∧ Carried w) (hkeys : (ws.map Request.key).Nodup)
    (hgrant : Guarded (exec A hash) (Granted A) ws (boot mem)) (rds : List Request)
    (hrds : ∀ x ∈ rds, x.cmd = .read ∧ (8 : BitVec 16) < x.valueSize+8) (r : Request)
    (hr : r.cmd = .read) :
    ∃ e, run (exec A hash) (ws++rds) (boot mem) = some e ∧
      (∀ w ∈ ws, w.key = r.key → w.valueSize = r.valueSize →
        (handle A hash e r).2.replies = [⟨r.id,true⟩] ∧
        (handle A hash e r).2.packets.flatten = w.value) ∧
      ((∀ w ∈ ws, w.key ≠ r.key) →
        (handle A hash e r).2.replies = [⟨r.id,false⟩] ∧ (handle A hash e r).2.packets = []) := by
  obtain ⟨mem1,n',chain',blocks',hwrites,hrep1⟩ := writes_represent ws hws hkeys
    (clear_represents A hash mem hclear) (fun _ _ => rfl) hgrant
  obtain ⟨mem',hreads,hrep⟩ := reads_kept rds hrds hrep1
  have hcmd : ∀ w ∈ ws, w.cmd = .write := fun w hw => (hws w hw).1
  refine ⟨_,(run_append _ _ _ _ _).mpr ⟨_,hwrites,hreads⟩,?_,?_⟩
  · intro w hw hkey hval
    obtain ⟨-,hlen,hsize⟩ := hws w hw
    have hv := applied_written ws hcmd hkeys (fun _ => none) w hw
    rw [hkey] at hv
    exact read_value hrep r hr w.value hv (by rw [← hval,hlen]) (by rw [← hval]; omega)
  · intro hno
    exact read_absent hrep r hr (applied_other ws hcmd _ r.key hno)

def socBlocks : Allocator where
  count := 4190208
  block n := BitVec.ofNat 32 (n*1024+4*1024*1024)
  room _ := 1024
  line_le _ _ := by omega
  end_le n hn := by rw [BitVec.toNat_ofNat]; omega
  table_le n hn := by rw [BitVec.toNat_ofNat]; omega
  apart m hm n hn hne := by rw [BitVec.toNat_ofNat, BitVec.toNat_ofNat]; omega

lemma zero_clear : Clear (fun _ => 0) := by
  have hzero : ∀ b i, entryAt (fun _ => 0) b i =
      fromFull (leNat (load (fun _ => (0 : Byte)) 0 8)) := by
    intro b i
    rfl
  intro h i _
  rw [hzero]
  decide

def request (cmd : Command) (key : Key) (value : List Byte) (valueSize : BitVec 16) : Request :=
  ⟨cmd,key,value,8,valueSize,0⟩

theorem written_then_read_two : ∃ e, run (exec socBlocks (fun _ => 0))
    [request .write 1 [7] 1,request .write 257 [8,9] 2,request .read 1 [] 1,request .read 3 [] 4]
    (boot (fun _ => 0)) = some e ∧
    (handle socBlocks (fun _ => 0) e (request .read 257 [] 2)).2.replies = [⟨0,true⟩] ∧
    (handle socBlocks (fun _ => 0) e (request .read 257 [] 2)).2.packets.flatten = [8,9] := by
  obtain ⟨e,hrun,hread,-⟩ := written_then_read socBlocks (fun _ => 0) (fun _ => 0) zero_clear
    [request .write 1 [7] 1,request .write 257 [8,9] 2] (by simp [request,Carried]) (by decide)
    (by decide +kernel) [request .read 1 [] 1,request .read 3 [] 4] (by simp [request])
    (request .read 257 [] 2) rfl
  exact ⟨e,hrun,hread (request .write 257 [8,9] 2) (by simp) rfl rfl⟩

/-- A read of no bytes leaves its signal, which takes the value of the next read away. -/
theorem value_lost_after_empty_read : ∃ e, run (exec socBlocks (fun _ => 0))
    [request .write 1 [7] 1,request .read 257 [] 0] (boot (fun _ => 0)) = some e ∧
    (handle socBlocks (fun _ => 0) e (request .read 1 [] 1)).2.replies = [⟨0,true⟩] ∧
    (handle socBlocks (fun _ => 0) e (request .read 1 [] 1)).2.packets = [] :=
  ⟨_,rfl,by decide +kernel,by decide +kernel⟩

/-- A write has room, an update fits, a read asks for bytes, and no line holds a key twice. -/
def Plain (e : Engine) (r : Request) : Prop :=
  (r.cmd = .write → r.valueSize.toNat+8 < 2^16 ∧ Granted A e r) ∧
  (r.cmd = .update → r.valueSize.toNat+8 < 2^16 ∧ ∀ m < A.count, r.valueSize.toNat+8 ≤ A.room m) ∧
  (r.cmd = .read → (8 : BitVec 16) < r.valueSize+8) ∧
  (r.cmd ≠ .write → ∀ c ∈ chainFor hash e r.key, (hits e.mem c r.key).length ≤ 1)

def OneReply (r : Request) (out : Output) : Prop :=
  ∃ success, out.replies = [⟨r.id,success⟩] ∧
    out.packets.length = if r.cmd = .read ∧ success = true then 1 else 0

def Shaped (e : Engine) : Prop := ∃ mem n chain, e = idle mem n ∧ Shape A mem n chain

lemma plain_step (e : Engine) (he : Shaped A e) (r : Request) (hr : Plain A hash e r) :
    Shaped A (handle A hash e r).1 ∧ OneReply r (handle A hash e r).2 := by
  obtain ⟨mem,n,chain,rfl,hs⟩ := he
  obtain ⟨hwrite,hupdate,hread,hone⟩ := hr
  by_cases hc : r.cmd = .write
  · obtain ⟨hsize,⟨hcount,hzero⟩,hroom⟩ := hwrite hc
    obtain ⟨mem',n',chain',hout,hins⟩ := @handle_write A hash _ _ _ hs r hc hcount hzero hsize
      hroom
    rw [hout]
    exact ⟨⟨mem',n',chain',rfl,hins.shape⟩,true,rfl,by simp [hc]⟩
  · have hone' : ∀ c ∈ chain (hash r.key), (hits mem c r.key).length ≤ 1 := by
      rw [← chain_for_eq hs [] r.key]
      exact hone hc
    have hres := handle_lookup hs r hc [] (fun _ => rfl) hone'
    rw [idle]
    generalize handle A hash (busy mem n []) r = out at hres
    -- a read that asks for bytes leaves no signal
    cases hres with
    | hit addr i signals accesses hmem hhit hready hacc =>
      have hnil := hready hread
      rw [key_of_data] at hhit
      have hi : i ∈ hits mem addr.toNat r.key := by rw [hhit]; simp
      obtain ⟨hi7,hv,-⟩ := (mem_hits mem _ i _).mp hi
      obtain ⟨⟨m,hm,hptr⟩,-⟩ := hs.pointer _ _ hmem i hi7 hv
      have hcount := hs.count
      have hfound := found_hit hs r { r.bucketCommand hash with entryAddr := addr } rfl rfl _ hmem
        i m hi hm hptr (fun hu => ⟨(hupdate hu).1,(hupdate hu).2 m (by omega)⟩)
      have hpackets : ∀ p : List Byte,
          (if r.cmd = .read ∧ (8 : BitVec 16) < r.valueSize+8 then [p] else []).length =
            if r.cmd = .read ∧ true = true then 1 else 0 := by
        intro p
        by_cases hrd : r.cmd = .read
        · rw [if_pos ⟨hrd,hread hrd⟩,if_pos ⟨hrd,rfl⟩]
          rfl
        · simp [hrd]
      exact ⟨⟨_,n,chain,by rw [hnil]; rfl,hfound.shape⟩,true,rfl,hpackets _⟩
    | miss signals accesses hmiss hready hacc =>
      have hnil := hready hread
      exact ⟨⟨mem,n,chain,by rw [hnil]; rfl,hs⟩,false,rfl,by simp⟩

/-- Every request of a plain run is answered once. -/
theorem one_reply_of_plain (mem : ℕ → Byte) (hclear : Clear mem) (rs : List Request)
    (r : Request) (hok : Guarded (exec A hash) (Plain A hash) (rs++[r]) (boot mem)) :
    ∃ e, run (exec A hash) rs (boot mem) = some e ∧ OneReply r (handle A hash e r).2 := by
  have hboot : Shaped A (boot mem) := ⟨mem,0,_,rfl,clear_shape A mem hclear⟩
  obtain ⟨e,hrun,hshaped,hplain⟩ := run_to_last (exec A hash) (fun e r => (handle A hash e r).1)
    (fun _ _ => rfl) (Plain A hash) (Shaped A) (fun e r he hr => (plain_step A hash e he r hr).1)
    rs r (boot mem) hboot hok
  exact ⟨e,hrun,(plain_step A hash e hshaped r hplain).2⟩

theorem one_reply_of_plain_read : ∃ e, run (exec socBlocks (fun _ => 0))
    [request .write 1 [7] 1] (boot (fun _ => 0)) = some e ∧
    OneReply (request .read 1 [] 1) (handle socBlocks (fun _ => 0) e (request .read 1 [] 1)).2 := by
  apply one_reply_of_plain socBlocks (fun _ => 0) (fun _ => 0) zero_clear
  refine ⟨⟨fun _ => by decide +kernel,nofun,nofun,fun h => absurd rfl h⟩,
    ⟨nofun,nofun,fun _ => by decide,?_⟩,trivial⟩
  intro _
  decide +kernel

/-- Two writes of a key fill two entries, and a read is answered twice. -/
theorem read_answered_twice : ∃ e, run (exec socBlocks (fun _ => 0))
    [request .write 1 [7] 1,request .write 1 [8] 1] (boot (fun _ => 0)) = some e ∧
    (handle socBlocks (fun _ => 0) e (request .read 1 [] 1)).2.replies = [⟨0,true⟩,⟨0,true⟩] ∧
    (handle socBlocks (fun _ => 0) e (request .read 1 [] 1)).2.packets = [[7],[8]] ∧
    ¬OneReply (request .read 1 [] 1)
      (handle socBlocks (fun _ => 0) e (request .read 1 [] 1)).2 := by
  refine ⟨_,rfl,by decide +kernel,by decide +kernel,?_⟩
  rintro ⟨success,hreplies,-⟩
  have hlen : _ = 1 := congrArg List.length hreplies
  revert hlen
  decide +kernel

def held (e : Engine) (k : Key) : Bool :=
  (chainFor hash e k).any (fun c => !(hits e.mem c k).isEmpty)

lemma held_iff {mem : ℕ → Byte} {n : ℕ} {chain : Chains} {blocks : Key → Option ℕ}
    (hst : Stored A hash mem n chain blocks) (signals : List Bool) (k : Key) :
    held hash (busy mem n signals) k = (blocks k).isSome := by
  rw [held,chain_for_eq hst.shape signals k,Bool.eq_iff_iff]
  constructor
  · intro h
    obtain ⟨c,hc,hne⟩ := any_eq_true.mp h
    by_contra hno
    have hnil := hst.hits_nil _ c k (Option.not_isSome_iff_eq_none.mp hno) hc
    change (!(hits mem c k).isEmpty) = true at hne
    rw [hnil] at hne
    cases hne
  · intro h
    obtain ⟨m,hm⟩ := Option.isSome_iff_exists.mp h
    obtain ⟨b,hb,hne⟩ := hst.hits_some k m hm
    refine any_eq_true.mpr ⟨b,hb,?_⟩
    change (!(hits mem b k).isEmpty) = true
    simpa using hne

def Fresh (e : Engine) (r : Request) : Prop :=
  (r.cmd = .write → held hash e r.key = false ∧ r.valueSize.toNat+8 < 2^16 ∧ Granted A e r) ∧
  (r.cmd = .update → r.valueSize.toNat+8 < 2^16 ∧ ∀ m < A.count, r.valueSize.toNat+8 ≤ A.room m) ∧
  (r.cmd = .read → (8 : BitVec 16) < r.valueSize+8)

def Mapped (e : Engine) : Prop :=
  ∃ mem n chain blocks, e = idle mem n ∧ Stored A hash mem n chain blocks

lemma fresh_step (e : Engine) (he : Mapped A hash e) (r : Request) (hr : Fresh A hash e r) :
    Mapped A hash (handle A hash e r).1 := by
  obtain ⟨mem,n,chain,blocks,rfl,hst⟩ := he
  obtain ⟨hwrite,hupdate,hread⟩ := hr
  by_cases hc : r.cmd = .write
  · obtain ⟨hheld,hsize,⟨hcount,hzero⟩,hroom⟩ := hwrite hc
    rw [idle,held_iff A hash hst] at hheld
    obtain ⟨mem',n',chain',hout,hins⟩ := @handle_write A hash _ _ _ hst.shape r hc hcount hzero
      hsize hroom
    rw [hout]
    exact ⟨mem',n',chain',_,rfl,stored_insert hst r (by simpa using hheld)
      (Nat.lt_of_succ_lt hcount) mem' n' chain' hins⟩
  · rw [idle]
    cases hk : blocks r.key with
    | none =>
      obtain ⟨signals,accesses,hready,-,hout⟩ := handle_absent hst r hc hk [] (fun _ => rfl)
      rw [hout,hready hread]
      exact ⟨mem,n,chain,blocks,rfl,hst⟩
    | some m =>
      obtain ⟨hm,-⟩ := hst.entered _ m hk
      have hcount := hst.shape.count
      obtain ⟨signals,accesses,mem',hready,-,hfound,hout⟩ := handle_found hst r hc m hk []
        (fun _ => rfl) (fun hu => ⟨(hupdate hu).1,(hupdate hu).2 m (by omega)⟩)
      rw [hout,hready hread]
      exact ⟨mem',n,chain,blocks,rfl,stored_found hst r m mem' hfound⟩

/-- A successful delete makes its key fail until it is written again, and only its key. -/
def DeleteWorks (e : Engine) (d : Request) : Prop :=
  (∃ reply ∈ (handle A hash e d).2.replies, reply.success = true) →
    (∀ rs, (∀ r ∈ rs, r.cmd = .write → r.key ≠ d.key) → ∀ u,
      run (exec A hash) rs (handle A hash e d).1 = some u → ∀ r, r.cmd = .read ∨ r.cmd = .update →
      r.key = d.key → ∀ reply ∈ (handle A hash u r).2.replies, reply.success = false) ∧
    (∀ c ∈ chainFor hash e d.key, ∀ i ∈ hits e.mem c d.key,
      (entryAt (handle A hash e d).1.mem c i).valid = false) ∧
    ∀ r, r.key ≠ d.key →
      (handle A hash (handle A hash e d).1 r).2.replies = (handle A hash e r).2.replies ∧
      (handle A hash (handle A hash e d).1 r).2.packets = (handle A hash e r).2.packets

/-- A delete does what it reports just when its key is not there. -/
theorem delete_works_iff (mem : ℕ → Byte) (hclear : Clear mem) (rs : List Request)
    (hok : Guarded (exec A hash) (Fresh A hash) rs (boot mem)) (e : Engine)
    (hrun : run (exec A hash) rs (boot mem) = some e) (d : Request) (hd : d.cmd = .delete) :
    DeleteWorks A hash e d ↔ held hash e d.key = false := by
  have hmapped : Mapped A hash e := by
    apply run_invariant (exec A hash) (Fresh A hash) (Mapped A hash) ?_ rs (boot mem) e
      ⟨mem,0,_,_,rfl,clear_stored A hash mem hclear⟩ hok hrun
    intro s a u hs hfresh hexec
    cases hexec
    exact fresh_step A hash s hs a hfresh
  obtain ⟨mem',n,chain,blocks,rfl,hst⟩ := hmapped
  have hcmd : d.cmd ≠ .write := by simp [hd]
  rw [idle,held_iff A hash hst,Option.isSome_eq_false_iff,Option.isNone_iff_eq_none]
  constructor
  · intro hworks
    by_contra hsome
    obtain ⟨m,hm⟩ := Option.ne_none_iff_exists'.mp hsome
    obtain ⟨signals,accesses,mem1,hready,-,hfound,hout⟩ := handle_found hst d hcmd m hm []
      (fun _ => rfl) (fun hu => by rw [hd] at hu; cases hu)
    have hnil : signals = [] := hready (fun h => by
      change d.cmd = .read at h
      rw [hd] at h
      cases h)
    -- a read of the key right behind the delete
    obtain ⟨s2,a2,mem2,-,-,-,hread⟩ := handle_found (stored_found hst d m mem1 hfound)
      { d with cmd := .read } (by simp) m hm [] (fun _ => rfl) (by simp)
    have hfail := (hworks ⟨⟨d.id,true⟩,by rw [hout]; simp,rfl⟩).1 [] (by simp) _ rfl
      { d with cmd := .read } (.inl rfl) rfl ⟨d.id,true⟩
    rw [hout,hnil] at hfail
    have := hfail (by rw [hread]; simp)
    cases this
  · intro hnone
    obtain ⟨signals,accesses,-,-,hout⟩ := handle_absent hst d hcmd hnone [] (fun _ => rfl)
    rintro ⟨reply,hreply,hsuccess⟩
    rw [hout] at hreply
    rw [mem_singleton.mp hreply] at hsuccess
    cases hsuccess

/-- Key 1 was written: a delete of it does not work, one of 2 does. -/
theorem delete_works_iff_written : ∃ e, run (exec socBlocks (fun _ => 0))
    [request .write 1 [7] 1] (boot (fun _ => 0)) = some e ∧
    ¬DeleteWorks socBlocks (fun _ => 0) e (request .delete 1 [] 0) ∧
    DeleteWorks socBlocks (fun _ => 0) e (request .delete 2 [] 0) := by
  have hok : Guarded (exec socBlocks (fun _ => 0)) (Fresh socBlocks (fun _ => 0))
      [request .write 1 [7] 1] (boot (fun _ => 0)) :=
    ⟨⟨fun _ => by decide +kernel,nofun,nofun⟩,trivial⟩
  have hiff := delete_works_iff socBlocks (fun _ => 0) (fun _ => 0) zero_clear _ hok _ rfl
  refine ⟨_,rfl,?_,?_⟩
  · rw [hiff (request .delete 1 [] 0) rfl]
    decide +kernel
  · rw [hiff (request .delete 2 [] 0) rfl]
    decide +kernel

/-- Written, deleted with success, and read with success. -/
theorem deleted_key_read : ∃ e, run (exec socBlocks (fun _ => 0))
    [request .write 1 [7] 1] (boot (fun _ => 0)) = some e ∧
    (handle socBlocks (fun _ => 0) e (request .delete 1 [] 0)).2.replies = [⟨0,true⟩] ∧
    (handle socBlocks (fun _ => 0) (handle socBlocks (fun _ => 0) e (request .delete 1 [] 0)).1
      (request .read 1 [] 1)).2.replies = [⟨0,true⟩] ∧
    ¬DeleteWorks socBlocks (fun _ => 0) e (request .delete 1 [] 0) := by
  refine ⟨_,rfl,by decide +kernel,by decide +kernel,?_⟩
  intro hworks
  have hfail := (hworks ⟨⟨0,true⟩,by decide +kernel,rfl⟩).1 [] nofun _ rfl
    (request .read 1 [] 1) (.inl rfl) rfl ⟨0,true⟩ (by decide +kernel)
  cases hfail

structure Traced where
  engine : Engine
  blocks : Key → Option ℕ
  values : Values

def track (t : Traced) (r : Request) : Traced :=
  ⟨(handle A hash t.engine r).1,
    if r.cmd = .write then update t.blocks r.key (some t.engine.allocs) else t.blocks,
    apply t.values r⟩

def execTraced (t : Traced) (r : Request) : Option Traced := some (track A hash t r)

def bootTraced (mem : ℕ → Byte) : Traced := ⟨boot mem,fun _ => none,fun _ => none⟩

/-- Data fits a block, a write is of a new key and a read asks for the size of its value. -/
def Sized (size : ℕ) (t : Traced) (r : Request) : Prop :=
  (r.cmd ≠ .delete → r.valueSize.toNat+8 ≤ size) ∧
  (r.cmd = .write ∨ r.cmd = .update → r.value.length = r.valueSize.toNat) ∧
  (r.cmd = .write → (t.values r.key).isNone = true ∧ Blank A t.engine) ∧
  (r.cmd = .read → 0 < r.valueSize.toNat ∧ ∀ v ∈ t.values r.key, r.valueSize.toNat = v.length)

def InBlock (size : ℕ) (blocks : Key → Option ℕ) (a : Access) : Prop :=
  ∃ k m, blocks k = some m ∧ a.ptr = A.block m ∧ a.len.toNat ≤ size

def ReadsLast (values : Values) (r : Request) (out : Output) : Prop :=
  r.cmd = .read → (∃ reply ∈ out.replies, reply.success = true) →
    ∃ v, values r.key = some v ∧ out.packets.flatten = v

def Faithful (t : Traced) : Prop :=
  ∃ mem n chain, t.engine = idle mem n ∧ Represents A hash mem n chain t.blocks t.values

variable {A hash} in
lemma fetched_in_block {mem : ℕ → Byte} {n : ℕ} {chain : Chains} {blocks : Key → Option ℕ}
    (hst : Stored A hash mem n chain blocks) (size : ℕ) (hsize : 8 ≤ size) (h : Hash)
    (b : BucketCommand) (hb : b.cmd ≠ .delete → (b.valueSize+8).toNat ≤ size)
    (accesses : List Access)
    (hacc : Fetched mem (chain h) b accesses) : ∀ a ∈ accesses, InBlock A size blocks a := by
  intro a ha
  obtain ⟨⟨c,hc,i,hi,hv,hptr⟩,hlen⟩ := hacc a ha
  obtain ⟨⟨m,hm,hblock⟩,-⟩ := hst.shape.pointer h c hc i hi hv
  refine ⟨_,m,hst.only h m hm ⟨c,hc,i,hi,hv,hblock⟩,hptr.trans hblock,?_⟩
  rcases hlen with hlen | ⟨hcmd,hlen⟩
  · rw [hlen]
    exact hsize
  · rw [hlen]
    exact hb hcmd

lemma apply_absent (values : Values) (r : Request) (hr : r.cmd ≠ .write)
    (hk : values r.key = none) : apply values r = values := by
  unfold apply
  cases hc : r.cmd <;> simp_all

lemma sized_step (size : ℕ) (hsize : 8 ≤ size) (hlt : size < 2^16)
    (hroom : ∀ m < A.count, A.room m = size) (t : Traced) (ht : Faithful A hash t) (r : Request)
    (hr : Sized A size t r) : Faithful A hash (track A hash t r) ∧
      (∀ a ∈ (handle A hash t.engine r).2.accesses, InBlock A size (track A hash t r).blocks a) ∧
      ReadsLast t.values r (handle A hash t.engine r).2 := by
  obtain ⟨engine,blocks,values⟩ := t
  obtain ⟨mem,n,chain,heng,hrep⟩ := ht
  obtain ⟨hfit,hlen,hwrite,hread⟩ := hr
  dsimp only at heng hrep hwrite hread ⊢
  subst heng
  have hst := hrep.stored
  have hcount := hst.shape.count
  have hkv : r.cmd ≠ .delete → (r.valueSize+8).toNat ≤ size := by
    intro hd
    have := hfit hd
    rw [kv_size _ (by omega)]
    exact this
  by_cases hc : r.cmd = .write
  · obtain ⟨hnew,hnext,hzero⟩ := hwrite hc
    have hblock := (hrep.none r.key).mp (Option.isNone_iff_eq_none.mp hnew)
    have hfits := hfit (by simp [hc])
    change n+1 < A.count at hnext
    have hgiven := hroom n (by omega)
    obtain ⟨mem',n',chain',hout,hins⟩ := @handle_write A hash _ _ _ hst.shape r hc hnext hzero
      (by omega) (by omega)
    have htrack : track A hash ⟨idle mem n,blocks,values⟩ r = ⟨idle mem' n',
        update blocks r.key (some n),update values r.key (some r.value)⟩ := by
      rw [track,if_pos hc,apply,hc]
      dsimp only
      rw [hout]
      rfl
    rw [htrack,hout]
    refine ⟨⟨mem',n',chain',rfl,represents_write hrep r hblock (hlen (.inl hc)) (by omega)
      (by omega) mem' n' chain' hins⟩,?_,?_⟩
    · intro a ha
      rw [mem_singleton.mp ha]
      exact ⟨r.key,n,update_self ..,rfl,hkv (by simp [hc])⟩
    · intro hrd
      rw [hc] at hrd
      cases hrd
  · have hasks : r.cmd = .read → (8 : BitVec 16) < r.valueSize+8 := by
      intro hrd
      have := hfit (by simp [hrd])
      have := (hread hrd).1
      rw [BitVec.lt_def,kv_size _ (by omega),show (8 : BitVec 16).toNat = 8 from rfl]
      omega
    have hblocks : (track A hash ⟨idle mem n,blocks,values⟩ r).blocks = blocks := if_neg hc
    rw [hblocks]
    cases hk : blocks r.key with
    | none =>
      obtain ⟨signals,accesses,hready,hacc,hout⟩ := handle_absent hst r hc hk [] (fun _ => rfl)
      have hnil := hready hasks
      refine ⟨⟨mem,n,chain,?_,?_⟩,?_,?_⟩
      · change (handle A hash (busy mem n []) r).1 = idle mem n
        rw [hout,hnil]
        rfl
      · rw [hblocks]
        change Represents A hash mem n chain blocks (apply values r)
        rw [apply_absent values r hc ((hrep.none r.key).mpr hk)]
        exact hrep
      · rw [idle,hout]
        exact fetched_in_block hst size hsize _ _ hkv accesses hacc
      · rw [idle,hout]
        rintro - ⟨reply,hreply,hsuccess⟩
        rw [mem_singleton.mp hreply] at hsuccess
        cases hsuccess
    | some m =>
      obtain ⟨hm,-⟩ := hst.entered _ m hk
      have hgiven := hroom m (by omega)
      have hupdate : r.cmd = .update → r.valueSize.toNat+8 ≤ size := fun hu => hfit (by simp [hu])
      obtain ⟨signals,accesses,mem',hready,hacc,hfound,hout⟩ := handle_found hst r hc m hk []
        (fun _ => rfl) (fun hu => by have := hupdate hu; omega)
      have hnil := hready hasks
      refine ⟨⟨mem',n,chain,?_,?_⟩,?_,?_⟩
      · change (handle A hash (busy mem n []) r).1 = idle mem' n
        rw [hout,hnil]
        rfl
      · rw [hblocks]
        exact represents_found hrep r hc m hk mem' hfound
          (fun hu => ⟨hlen (.inr hu),by have := hupdate hu; omega⟩)
      · rw [idle,hout]
        exact fetched_in_block hst size hsize _ _ hkv accesses hacc
      · intro hrd _
        obtain ⟨v,hv⟩ : ∃ v, values r.key = some v :=
          Option.isSome_iff_exists.mp (by rw [hrep.present,hk]; rfl)
        have := hfit (by simp [hrd])
        exact ⟨v,hv,(read_value hrep r hrd v hv ((hread hrd).2 v hv) (by omega)).2⟩

/-- If sizes fit and agree, transfers stay in their blocks and reads return the last value. -/
theorem sized_run_in_blocks (mem : ℕ → Byte) (hclear : Clear mem) (rs : List Request)
    (r : Request) (hok : Guarded (execTraced socBlocks hash) (Sized socBlocks 1024) (rs++[r])
      (bootTraced mem)) :
    ∃ t, run (execTraced socBlocks hash) rs (bootTraced mem) = some t ∧
      (∀ a ∈ (handle socBlocks hash t.engine r).2.accesses,
        InBlock socBlocks 1024 (track socBlocks hash t r).blocks a) ∧
      ReadsLast t.values r (handle socBlocks hash t.engine r).2 := by
  have hstep := sized_step socBlocks hash 1024 (by omega) (by omega) (fun _ _ => rfl)
  have hboot : Faithful socBlocks hash (bootTraced mem) :=
    ⟨mem,0,_,rfl,clear_represents socBlocks hash mem hclear⟩
  obtain ⟨t,hrun,hfaithful,hsized⟩ := run_to_last (execTraced socBlocks hash)
    (track socBlocks hash) (fun _ _ => rfl) (Sized socBlocks 1024) (Faithful socBlocks hash)
    (fun t r ht hr => (hstep t ht r hr).1) rs r (bootTraced mem) hboot hok
  exact ⟨t,hrun,(hstep t hfaithful r hsized).2⟩

theorem sized_run_in_blocks_read : ∃ t, run (execTraced socBlocks (fun _ => 0))
    [request .write 1 [7] 1] (bootTraced (fun _ => 0)) = some t ∧
    (∀ a ∈ (handle socBlocks (fun _ => 0) t.engine (request .read 1 [] 1)).2.accesses,
      InBlock socBlocks 1024 (track socBlocks (fun _ => 0) t (request .read 1 [] 1)).blocks a) ∧
    ReadsLast t.values (request .read 1 [] 1)
      (handle socBlocks (fun _ => 0) t.engine (request .read 1 [] 1)).2 := by
  apply sized_run_in_blocks (fun _ => 0) (fun _ => 0) zero_clear
  refine ⟨⟨fun _ => by decide,fun _ => rfl,fun _ => ⟨rfl,by decide +kernel⟩,nofun⟩,
    ⟨fun _ => by decide,by simp [request],nofun,fun _ => ⟨by decide,?_⟩⟩,trivial⟩
  intro v hv
  have hval : some [7] = some v := hv
  cases hval
  rfl

/-- A value of one byte, read with size 2. -/
theorem read_past_value : ∃ t, run (execTraced socBlocks (fun _ => 0))
    [request .write 1 [7] 1] (bootTraced (fun _ => 0)) = some t ∧
    (handle socBlocks (fun _ => 0) t.engine (request .read 1 [] 2)).2.packets = [[7,0]] ∧
    ¬ReadsLast t.values (request .read 1 [] 2)
      (handle socBlocks (fun _ => 0) t.engine (request .read 1 [] 2)).2 := by
  refine ⟨_,rfl,by decide +kernel,?_⟩
  intro hlast
  obtain ⟨v,hv,hpackets⟩ := hlast rfl ⟨⟨0,true⟩,by decide +kernel,rfl⟩
  have hval : some [7] = some v := hv
  cases hval
  revert hpackets
  decide +kernel

end Clio.KeyValueRun
