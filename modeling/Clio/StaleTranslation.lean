import Clio.AddressLookup
import Clio.Machine

/-!
# Translations after a free

A free clears the entry in board memory and then sends a shootdown.
-/

namespace Clio.StaleTranslation

open CoreMemTypes FetchUnit BramCache LookupTable Machine AddressLookup
open PageFault (Item)

structure Wf (s : State) : Prop where
  dram : ∀ b l i, (s.dram b l i).pageType = 0
  entry : ∀ r p, (r, p) ∈ inFlight s → p.pageType = 0 ∧
    ((p.allocated = true ∧ p.tag >>> 2 = r >>> 2) ∨ (p.allocated = false ∧ p.used = false))
  merged : ∀ q ∈ merged s, PageFault.noAlloc q.2.pte = true ∧
    (q.1 = false → q.2.pte.allocated = true ∧ q.2.pte.used = true)
  cam : ∀ i, (s.pf.cam.cells i).value.pageType = 0 ∧
    (((s.pf.cam.cells i).value.allocated = true ∧ (s.pf.cam.cells i).value.used = true) ∨
      ((s.pf.cam.cells i).value.allocated = false ∧ (s.pf.cam.cells i).value.used = false))
  writeData : ∀ p ∈ s.pf.memWriteData, p.pageType = 0 ∧ p.allocated = true ∧ p.used = true
  cache : ∀ i, (s.cache.cells i).used = true → (s.cache.cells i).mask = getTagMask 0

variable (addrFifos : Fin 3 → List (BitVec 40))

lemma init_wf : Wf (init addrFifos) := by
  constructor <;> simp [init,inFlight,AddressLookup.merged,PageFault.init,emptyBits,noCells]

lemma fetched_entry (s : State) (hs : Wf s) (req : AddressLookupRequest) :
    (fetch s.dram req).pageType = 0 ∧
      (((fetch s.dram req).allocated = true ∧ (fetch s.dram req).tag >>> 2 = req.tag >>> 2) ∨
        ((fetch s.dram req).allocated = false ∧ (fetch s.dram req).used = false)) := by
  simp only [FetchUnit.fetch]
  rcases fetch_tag_fetched s.dram req.tag with ⟨heq,-⟩ | ⟨l,i,hm,heq⟩
  · rw [heq]
    exact ⟨rfl,Or.inr ⟨rfl,rfl⟩⟩
  · rw [heq]
    obtain ⟨ha,ht⟩ := Bool.and_eq_true_iff.mp hm
    rw [hs.dram,tag_match_zero] at ht
    exact ⟨hs.dram _ _ _,Or.inl ⟨ha,ht⟩⟩

lemma cam_lookup_entry (s : State) (hs : Wf s) (r : BitVec 60) (p : PageTableEntry)
    (hp : (r, p) ∈ inFlight s) :
    (PageFault.camLookup s.pf.cam p).pageType = 0 ∧
      (((PageFault.camLookup s.pf.cam p).allocated = true ∧
        (PageFault.camLookup s.pf.cam p).tag >>> 2 = r >>> 2) ∨
      ((PageFault.camLookup s.pf.cam p).allocated = false ∧
        (PageFault.camLookup s.pf.cam p).used = false)) := by
  obtain ⟨htype,hshape⟩ := hs.entry r p hp
  unfold PageFault.camLookup
  split
  · rename_i hsel
    have hused := (Bool.and_eq_true_iff.mp hsel).2
    have htag : p.tag >>> 2 = r >>> 2 := by
      rcases hshape with ⟨-,ht⟩ | ⟨-,hu⟩
      · exact ht
      · rw [hused] at hu
        cases hu
    obtain ⟨hct,⟨hca,-⟩ | hcn⟩ := hs.cam (rdaddr s.pf.cam p.tag)
    · exact ⟨hct,Or.inl ⟨hca,htag⟩⟩
    · exact ⟨hct,Or.inr hcn⟩
  · exact ⟨htype,hshape⟩

lemma fill_entry (it : Item) (ppa : BitVec 40) :
    (it.fill ppa).pte.pageType = it.pte.pageType ∧ (it.fill ppa).pte.tag = it.pte.tag ∧
      (it.fill ppa).pte.allocated = it.pte.allocated ∧ (it.fill ppa).pte.used = true ∧
      (it.fill ppa).pte.ppa = ppa ∧ (it.fill ppa).pte.pteAddr = it.pte.pteAddr ∧
      (it.fill ppa).req = it.req :=
  ⟨rfl,rfl,rfl,rfl,rfl,rfl,rfl⟩

lemma no_alloc_false (pte : PageTableEntry) (h : PageFault.noAlloc pte = false) :
    pte.used = false ∧ pte.allocated = true := by
  simpa [PageFault.noAlloc] using h

section

variable (s u : State) (a : Action) (h : Effect s a u) (hs : Wf s)
include s u a h hs

lemma effect_entry_wf (r : BitVec 60) (p : PageTableEntry) (hp : (r, p) ∈ inFlight u) :
    p.pageType = 0 ∧
      ((p.allocated = true ∧ p.tag >>> 2 = r >>> 2) ∨ (p.allocated = false ∧ p.used = false)) := by
  cases entry_origin s u a h r p hp with
  | kept hk => exact hs.entry r p hk
  | fetched req rest ha hfwd hr heq =>
    rw [hr,heq]
    exact fetched_entry s hs req
  | looked q rest ha hf heq =>
    rw [heq]
    exact cam_lookup_entry s hs r q (head_in_flight s r q rest hf)
  | filled it rest ppa ha hl hr hno heq =>
    obtain ⟨htype,hshape⟩ := hs.entry _ _ (looked_in_flight s it rest hl)
    have halloc := (no_alloc_false it.pte hno).2
    rcases hshape with ⟨-,ht⟩ | ⟨hna,-⟩
    · rw [hr,heq]
      exact ⟨htype,Or.inl ⟨halloc,ht⟩⟩
    · rw [halloc] at hna
      cases hna

lemma effect_merged_wf (q : Bool × Item) (hq : q ∈ merged u) :
    PageFault.noAlloc q.2.pte = true ∧
      (q.1 = false → q.2.pte.allocated = true ∧ q.2.pte.used = true) := by
  rcases merged_origin s u a h q hq with hold | ⟨it,rest,hl,⟨hno,rfl⟩ | ⟨ppa,hno,rfl⟩⟩
  · exact hs.merged q hold
  · exact ⟨hno,by simp⟩
  · have halloc := (no_alloc_false it.pte hno).2
    exact ⟨by simp [PageFault.noAlloc,fill_entry],fun _ => ⟨halloc,rfl⟩⟩

lemma effect_wf : Wf u where
  dram := by
    intro b l i
    rcases dram_origin s u a h b l i with heq | ⟨p,rest,hq,-,-,-,heq⟩ | ⟨tag,ppa,-,-,-,heq⟩ |
      ⟨tag,-,-,heq⟩
    · rw [heq]
      exact hs.dram b l i
    · rw [heq]
      exact (hs.writeData p (by simp [hq])).1
    · rw [heq]
      cases ppa <;> exact hs.dram b l i
    · rw [heq]
      unfold zapBits
      split <;> exact hs.dram b l i
  entry := effect_entry_wf s u a h hs
  merged := effect_merged_wf s u a h hs
  cam := by
    intro i
    rcases cam_origin s u a h i with heq | heq | ⟨it,rest,hq,heq⟩
    · rw [heq]
      exact hs.cam i
    · rw [heq]
      exact hs.cam i
    · rw [heq]
      have hmem : (false, it) ∈ AddressLookup.merged s := by simp [AddressLookup.merged,hq]
      exact ⟨(hs.entry _ _ (merged_in_flight s _ hmem)).1,Or.inl ((hs.merged _ hmem).2 rfl)⟩
  writeData := by
    intro p hp
    rcases write_data_origin s u a h p hp with hold | ⟨it,rest,hq,rfl⟩
    · exact hs.writeData p hold
    · have hmem : (false, it) ∈ AddressLookup.merged s := by simp [AddressLookup.merged,hq]
      exact ⟨(hs.entry _ _ (merged_in_flight s _ hmem)).1,(hs.merged _ hmem).2 rfl⟩
  cache := by
    intro i hi
    rcases cache_origin s u a h i hi with heq | ⟨b,it,rest,hq,ha,heq⟩
    · rw [heq] at hi ⊢
      exact hs.cache i hi
    · rw [heq]
      rw [(hs.entry _ _ (merged_in_flight s (b, it) (by simp [AddressLookup.merged,hq]))).1]

end

/-- No entry of the page of `t` is left anywhere. -/
structure Quiet (t : BitVec 60) (s : State) : Prop where
  dram : ∀ l i, isMatch t (s.dram (hashFunc t) l i) = false
  entry : ∀ r p, (r, p) ∈ inFlight s → p.allocated = true → p.tag >>> 2 ≠ t >>> 2
  writeData : ∀ p ∈ s.pf.memWriteData, p.allocated = true → p.tag >>> 2 ≠ t >>> 2
  cache : ∀ i, resVec s.cache t i = false

/-- Memory, the pipeline and the write-backs hold no entry of the page, and the cache one. -/
structure Settled (t : BitVec 60) (s : State) : Prop where
  dram : ∀ l i, isMatch t (s.dram (hashFunc t) l i) = false
  entry : ∀ x ∈ inFlight s, x.2.allocated = true → x.2.tag >>> 2 ≠ t >>> 2
  writeData : ∀ p ∈ s.pf.memWriteData, p.allocated = true → p.tag >>> 2 ≠ t >>> 2
  cache : ∀ i j, resVec s.cache t i = true → resVec s.cache t j = true → i = j

def Allocates (t : BitVec 60) : Action → Prop
  | .allocPte tag _ _ _ => tag >>> 2 = t >>> 2
  | _ => False

instance (t : BitVec 60) (a : Action) : Decidable (Allocates t a) := by
  cases a <;> unfold Allocates <;> infer_instance

lemma not_match_of_page (t : BitVec 60) (bits : FullBits) (htype : bits.pageType = 0)
    (h : bits.allocated = true → bits.tag >>> 2 ≠ t >>> 2) : isMatch t bits = false := by
  rw [← Bool.not_eq_true,isMatch,Bool.and_eq_true,htype,tag_match_zero]
  exact fun hm => h hm.1 hm.2

lemma cache_page (s : State) (hs : Wf s) (r t : BitVec 60) (hpage : r >>> 2 = t >>> 2)
    (i : BitVec 6) (h : resVec s.cache r i = true) : resVec s.cache t i = true := by
  have hmask := hs.cache i (res_vec_used s.cache r i h)
  rw [resVec,Bool.and_eq_true,match_cell_iff,hmask,← beq_iff_eq] at h ⊢
  exact ⟨(tag_match_zero _ _).mpr (((tag_match_zero _ _).mp h.1).trans hpage),h.2⟩

section

variable (t : BitVec 60) (s u : State) (a : Action) (h : Effect s a u) (hs : Wf s) (hq : Quiet t s)
include t s u a h hs hq

lemma effect_quiet_dram (ha : ¬Allocates t a) (l i : Fin 4) :
    isMatch t (u.dram (hashFunc t) l i) = false := by
  rcases dram_origin s u a h (hashFunc t) l i with heq | ⟨p,rest,hp,-,-,-,heq⟩ |
    ⟨tag,ppa,rfl,-,-,heq⟩ | ⟨tag,-,-,heq⟩
  · rw [heq]
    exact hq.dram l i
  · have hmem : p ∈ s.pf.memWriteData := by simp [hp]
    rw [heq]
    exact not_match_of_page t _ (hs.writeData p hmem).1 (hq.writeData p hmem)
  · rw [heq]
    cases ppa <;> exact not_match_of_page t _ (hs.dram _ _ _) (fun _ => ha)
  · rw [heq]
    unfold zapBits
    split
    · simp [isMatch]
    · exact hq.dram l i

lemma effect_quiet_entry (r : BitVec 60) (p : PageTableEntry) (hp : (r, p) ∈ inFlight u)
    (halloc : p.allocated = true) : p.tag >>> 2 ≠ t >>> 2 := by
  cases entry_origin s u a h r p hp with
  | kept hk => exact hq.entry r p hk halloc
  | fetched req rest ha hfwd hr heq =>
    intro hpage
    subst heq
    simp only [FetchUnit.fetch] at halloc hpage
    rcases fetch_tag_fetched s.dram req.tag with ⟨he,-⟩ | ⟨l,i,hm,he⟩
    · rw [he] at halloc
      cases halloc
    · rw [he] at hpage
      simp only [fromFullBits] at hpage
      obtain ⟨-,ht⟩ := Bool.and_eq_true_iff.mp hm
      rw [hs.dram,tag_match_zero] at ht
      have hsame : req.tag >>> 2 = t >>> 2 := ht.symm.trans hpage
      have hmatch := hq.dram l i
      rw [← hash_page _ _ hsame,isMatch,← tag_match_page _ _ _ _ hsame,← isMatch,hm] at hmatch
      cases hmatch
  | looked q rest ha hf heq =>
    have hmem := head_in_flight s r q rest hf
    subst heq
    unfold PageFault.camLookup at halloc ⊢
    split at halloc
    · rename_i hsel
      have hused := (Bool.and_eq_true_iff.mp hsel).2
      rw [if_pos hsel]
      rcases (hs.entry r q hmem).2 with ⟨hqa,-⟩ | ⟨-,hqu⟩
      · exact hq.entry r q hmem hqa
      · rw [hused] at hqu
        cases hqu
    · rename_i hsel
      rw [if_neg hsel]
      exact hq.entry r q hmem halloc
  | filled it rest ppa ha hl hr hno heq =>
    have hold :=
      hq.entry it.req it.pte (looked_in_flight s it rest hl) (no_alloc_false it.pte hno).2
    rw [heq]
    exact hold

lemma effect_quiet (ha : ¬Allocates t a) : Quiet t u where
  dram := effect_quiet_dram t s u a h hs hq ha
  entry := effect_quiet_entry t s u a h hs hq
  writeData := by
    intro p hp halloc
    rcases write_data_origin s u a h p hp with hold | ⟨it,rest,hr,rfl⟩
    · exact hq.writeData p hold halloc
    · exact hq.entry _ _ (merged_in_flight s (false, it)
        (by simp [AddressLookup.merged,hr])) halloc
  cache := by
    intro i
    rw [← Bool.not_eq_true]
    intro hi
    rcases cache_origin s u a h i (res_vec_used _ _ _ hi) with heq | ⟨b,it,rest,hw,halloc,heq⟩
    · rw [resVec,heq,← resVec,hq.cache i] at hi
      cases hi
    · have hmem := merged_in_flight s (b, it) (by simp [AddressLookup.merged,hw])
      rw [resVec,heq,inserted_matches,(hs.entry _ _ hmem).1,Bool.and_eq_true, tag_match_zero] at hi
      exact hq.entry _ _ hmem halloc hi.1

lemma effect_quiet_results :
    ∃ new, u.results = s.results++new ∧ ∀ x ∈ new, x.1 >>> 2 = t >>> 2 → x.2.used = false := by
  rcases result_origin s u a h with heq | ⟨req,-,-,hh,heq⟩ | ⟨b,it,rest,hw,heq⟩
  · exact ⟨[],by simp [heq],by simp⟩
  · refine ⟨_,heq,?_⟩
    intro x hx hpage
    obtain rfl := List.mem_singleton.mp hx
    obtain ⟨i,hi⟩ := (hit_iff s.cache req.tag).mp hh
    have hno := hq.cache i
    rw [cache_page s hs req.tag t hpage i hi] at hno
    cases hno
  · refine ⟨_,heq,?_⟩
    intro x hx hpage
    obtain rfl := List.mem_singleton.mp hx
    have hmem := merged_in_flight s (b, it) (by simp [AddressLookup.merged,hw])
    rcases (hs.entry _ _ hmem).2 with ⟨halloc,htag⟩ | ⟨-,hused⟩
    · exact absurd (htag.trans hpage) (hq.entry _ _ hmem halloc)
    · exact hused

end

lemma exec_wf (s : State) (a : Action) (u : State) (hs : Wf s) (h : exec s a = some u) : Wf u :=
  effect_wf s u a (exec_effect s u a h) hs

lemma run_wf (as : List Action) (s : State) (h : run exec as (init addrFifos) = some s) : Wf s :=
  run_preserves exec Wf exec_wf as (init addrFifos) s (init_wf addrFifos) h

variable (t : BitVec 60)

lemma quiet_run (as : List Action) (s u : State) (hs : Wf s) (hq : Quiet t s)
    (hno : ∀ a ∈ as, ¬Allocates t a) (hrun : run exec as s = some u) :
    ∃ new, u.results = s.results++new ∧ ∀ x ∈ new, x.1 >>> 2 = t >>> 2 → x.2.used = false := by
  induction as generalizing s with
  | nil =>
    obtain rfl := Option.some.inj hrun
    exact ⟨[],by simp,by simp⟩
  | cons a as ih =>
    obtain ⟨m,hm,hrest⟩ := run_cons exec a as s u hrun
    have heff := exec_effect s m a hm
    obtain ⟨new,hnew,hused⟩ := effect_quiet_results t s m a heff hs hq
    obtain ⟨more,hmore,hused'⟩ := ih m (effect_wf s m a heff hs)
      (effect_quiet t s m a heff hs hq (hno a (by simp))) (fun b hb => hno b (by simp [hb])) hrest
    refine ⟨new++more,by rw [hmore,hnew,List.append_assoc],?_⟩
    intro x hx
    rcases List.mem_append.mp hx with hx | hx
    · exact hused x hx
    · exact hused' x hx

lemma shootdown_quiet (seqId : BitVec 16) (s u : State) (h : Settled t s)
    (hexec : exec s (.lookup ⟨seqId, t, .SHOOTDOWN⟩) = some u) : Quiet t u := by
  cases exec_effect s u _ hexec with
  | hit req ht hh | miss req ht hh => cases ht
  | shootdown req ht =>
    refine ⟨h.dram,fun r p hp => h.entry (r, p) hp,h.writeData,?_⟩
    intro i
    have hcells := shootdown_cells s.cache ⟨seqId,t,.SHOOTDOWN⟩ rfl h.cache t i
    rw [← Bool.not_eq_true,hcells]
    rintro ⟨hold,hnone⟩
    rw [hold] at hnone
    cases hnone

/-- A page freed and shot down in a settled state is not translated until allocated again. -/
theorem no_stale_translation (addrFifos : Fin 3 → List (BitVec 40)) (pre mid post : List Action)
    (t : BitVec 60) (l i : Fin 4) (seqId : BitVec 16) (s u v : State)
    (hfree : run exec (pre++.zapPte t l i::mid) (init addrFifos) = some s)
    (hsettled : Settled t s)
    (hshoot : exec s (.lookup ⟨seqId, t, .SHOOTDOWN⟩) = some u)
    (hpost : run exec post u = some v) (hno : ∀ a ∈ post, ¬Allocates t a) :
    ∃ new, v.results = u.results++new ∧ ∀ x ∈ new, x.1 >>> 2 = t >>> 2 → x.2.used = false :=
  quiet_run t post u v (exec_wf s _ u (run_wf addrFifos _ s hfree) hshoot)
    (shootdown_quiet t seqId s u hsettled hshoot) hno hpost

def fetchedPage : List Action :=
  [.allocPte 4 0 0 (some 0x540000000), .lookup ⟨0, 4, .LOOKUP⟩, .fetch]

def insertPage : List Action := [.pageFaultReq, .merge, .camWrite 0, .report, .forward (some 0)]

def missPage : List Action :=
  [.lookup ⟨1, 4, .LOOKUP⟩, .fetch, .pageFaultReq, .merge, .camWrite 0, .report, .forward none]

def noPages : Fin 3 → List (BitVec 40) := fun _ => []

/-- The entry is cached before the free, and the shootdown removes it. -/
theorem no_stale_translation_cached :
    ∃ s u v, run exec ((fetchedPage++insertPage)++.zapPte 4 0 0::[]) (init noPages) = some s ∧
      exec s (.lookup ⟨0, 4, .SHOOTDOWN⟩) = some u ∧ run exec missPage u = some v ∧
      ∃ new, v.results = u.results++new ∧ ∀ x ∈ new, x.1 >>> 2 = 4 >>> 2 → x.2.used = false :=
  ⟨_,_,_,rfl,rfl,rfl,no_stale_translation noPages (fetchedPage++insertPage) [] missPage 4 0 0 0
    _ _ _ rfl ⟨by decide +kernel,by decide +kernel,by decide +kernel,by decide +kernel⟩
    rfl rfl (by decide +kernel)⟩

/-- The entry is fetched before the free and stored after the shootdown. -/
theorem stale_translation_after_shootdown :
    ∃ s u v, run exec (fetchedPage++.zapPte 4 0 0::[]) (init noPages) = some s ∧
      exec s (.lookup ⟨0, 4, .SHOOTDOWN⟩) = some u ∧ run exec insertPage u = some v ∧
      ∃ w pte, exec v (.lookup ⟨1, 4, .LOOKUP⟩) = some w ∧ w.results = v.results++[(4, pte)] ∧
        pte.used = true ∧ pte.ppa = 0x540000000 :=
  ⟨_,_,_,rfl,rfl,rfl,_,⟨1, true, true, 0, 0x540000000, 0, 0⟩,rfl,by decide,rfl,rfl⟩

end Clio.StaleTranslation
