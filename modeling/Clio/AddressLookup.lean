import Clio.PageFault

/-!
# The address lookup unit

Cache, bucket fetch, page fault unit and page table writer, with the marking and clearing of
entries by the board processor.
-/

namespace Clio.AddressLookup

open List CoreMemTypes FetchUnit BramCache LookupTable
open PageFault (Item fork)

structure State where
  dram : HashTable
  cache : Cache
  fwd : List AddressLookupRequest
  fetched : List (BitVec 60 × PageTableEntry)
  pf : PageFault.State
  writeRsp : ℕ
  results : List (BitVec 60 × PageTableEntry)

inductive Action where
  | lookup (req : AddressLookupRequest)
  | fetch
  | pageFaultReq
  | merge
  | camWrite (cell : BitVec 4)
  | report
  | forward (cell : Option (BitVec 6))
  | memWrite
  | writeRsp
  | refill (fifo : Fin 3) (ppa : BitVec 40)
  | allocPte (tag : BitVec 60) (l i : Fin 4) (ppa : Option (BitVec 40))
  | zapPte (tag : BitVec 60) (l i : Fin 4)

def setSlot (t : HashTable) (b : BitVec 9) (l i : Fin 4) (bits : FullBits) : HashTable :=
  fun b' l' i' => if b' = b ∧ l' = l ∧ i' = i then bits else t b' l' i'

def writePte (t : HashTable) (pte : PageTableEntry) : HashTable :=
  setSlot t pte.pteAddr 0 0 (asFullBits pte)

def allocBits (bits : FullBits) (tag : BitVec 60) : Option (BitVec 40) → FullBits
  | none => { bits with allocated := true, tag := tag, used := false, ppa := 0 }
  | some ppa => { bits with allocated := true, tag := tag, used := true, ppa := ppa }

/-- `zap_pte`: clear an allocated slot. -/
def zapBits (bits : FullBits) : FullBits :=
  if bits.allocated then
    { bits with allocated := false, tag := 0, used := false,
                ppa := if bits.used then 0 else bits.ppa }
  else bits

def insertRpt (cache : Cache) (cell : Option (BitVec 6)) (pte : PageTableEntry) : Option Cache :=
  if pte.allocated then
    match cell with
    | none => some cache
    | some c =>
        if cache.ids c = true ∨ ∀ i, cache.ids i = false then some (insertReq cache c pte) else none
  else some cache

def exec (s : State) : Action → Option State
  | .lookup req =>
      match lookupCtrl s.cache req with
      | (cache, .res pte) => some { s with cache := cache, results := s.results++[(req.tag, pte)] }
      | (cache, .fwd r) => some { s with cache := cache, fwd := s.fwd++[r] }
      | (cache, .none) => some { s with cache := cache }
  | .fetch =>
      match s.fwd with
      | [] => none
      | req::rest => some { s with
          fwd := rest, fetched := s.fetched++[(req.tag, FetchUnit.fetch s.dram req)] }
  | .pageFaultReq =>
      match s.fetched with
      | [] => none
      | (tag, pte)::rest => some { s with fetched := rest, pf := PageFault.arrive s.pf tag pte }
  | .merge => (PageFault.merge s.pf).map (fun pf => { s with pf := pf })
  | .camWrite cell => (PageFault.camWrite s.pf cell).map (fun pf => { s with pf := pf })
  | .report => (PageFault.report s.pf).map (fun pf => { s with pf := pf })
  | .forward cell =>
      match s.pf.faultFwd with
      | [] => none
      | (_, it)::rest => (insertRpt s.cache cell it.pte).map (fun cache => { s with
          cache := cache
          pf := { s.pf with faultFwd := rest }
          results := s.results++[(it.req, it.pte)] })
  | .memWrite =>
      match s.pf.memWriteData with
      | [] => none
      | pte::rest => some { s with
          dram := writePte s.dram pte
          pf := { s.pf with memWriteData := rest }
          writeRsp := s.writeRsp+1 }
  | .writeRsp =>
      match s.writeRsp, s.pf.memWriteUser with
      | n+1, cell::_ =>
          (PageFault.memWriteRes s.pf cell).map (fun pf => { s with pf := pf, writeRsp := n })
      | _, _ => none
  | .refill fifo ppa => some { s with pf := PageFault.refill s.pf fifo ppa }
  | .allocPte tag l i ppa =>
      if (s.dram (hashFunc tag) l i).allocated then none
      else some { s with
        dram := setSlot s.dram (hashFunc tag) l i (allocBits (s.dram (hashFunc tag) l i) tag ppa) }
  | .zapPte tag l i =>
      some { s with
        dram := setSlot s.dram (hashFunc tag) l i (zapBits (s.dram (hashFunc tag) l i)) }

def init (addrFifos : Fin 3 → List (BitVec 40)) : State where
  dram := fun _ _ _ => emptyBits
  cache := noCells
  fwd := []
  fetched := []
  pf := PageFault.init addrFifos
  writeRsp := 0
  results := []

/-- What a step can do. -/
inductive Effect (s : State) : Action → State → Prop where
  | hit (req : AddressLookupRequest) (ht : req.reqType = .LOOKUP)
      (hh : hit s.cache req.tag = true) :
      Effect s (.lookup req) { s with results := s.results++[(req.tag,
        { compact emptyPte (rdvalue s.cache req.tag) with seqId := req.seqId })] }
  | miss (req : AddressLookupRequest) (ht : req.reqType = .LOOKUP)
      (hh : LookupTable.hit s.cache req.tag = false) :
      Effect s (.lookup req) { s with fwd := s.fwd++[req] }
  | shootdown (req : AddressLookupRequest) (ht : req.reqType = .SHOOTDOWN) :
      Effect s (.lookup req) { s with cache := (lookupCtrl s.cache req).1 }
  | fetch (req : AddressLookupRequest) (rest : List AddressLookupRequest)
      (hq : s.fwd = req::rest) :
      Effect s .fetch { s with
        fwd := rest, fetched := s.fetched++[(req.tag, FetchUnit.fetch s.dram req)] }
  | arrive (r : BitVec 60) (p : PageTableEntry) (rest : List (BitVec 60 × PageTableEntry))
      (hq : s.fetched = (r, p)::rest) :
      Effect s .pageFaultReq { s with fetched := rest, pf := PageFault.arrive s.pf r p }
  | pass (it : Item) (rest : List Item) (hq : s.pf.lookupResult = it::rest)
      (hno : PageFault.noAlloc it.pte = true) :
      Effect s .merge { s with pf := fork { s.pf with lookupResult := rest } (true, it) }
  | fault (it : Item) (rest : List Item) (ppa : BitVec 40) (fifo : List (BitVec 40))
      (hq : s.pf.lookupResult = it::rest) (hno : PageFault.noAlloc it.pte = false)
      (hf : s.pf.addrFifos (PageFault.fifoOf it.pte.pageType) = ppa::fifo) :
      Effect s .merge { s with
        pf := fork { s.pf with
          lookupResult := rest
          addrFifos := Function.update s.pf.addrFifos (PageFault.fifoOf it.pte.pageType) fifo }
            (false, it.fill ppa) }
  | camSkip (cell : BitVec 4) (it : Item) (rest : List (Bool × Item))
      (hq : s.pf.bramWr = (true, it)::rest) :
      Effect s (.camWrite cell) { s with pf := { s.pf with bramWr := rest } }
  | camWrite (cell : BitVec 4) (it : Item) (rest : List (Bool × Item))
      (hq : s.pf.bramWr = (false, it)::rest) (hid : s.pf.cam.ids cell = true) :
      Effect s (.camWrite cell) { s with pf := { s.pf with
        bramWr := rest
        cam := write s.pf.cam cell it.pte.tag 0 (asCompactBits it.pte)
        memWriteUser := s.pf.memWriteUser++[cell] } }
  | reportSkip (it : Item) (rest : List (Bool × Item)) (hq : s.pf.faultRpt = (true, it)::rest) :
      Effect s .report { s with pf := { s.pf with faultRpt := rest } }
  | report (it : Item) (rest : List (Bool × Item)) (hq : s.pf.faultRpt = (false, it)::rest) :
      Effect s .report { s with pf := { s.pf with
        faultRpt := rest, memWriteData := s.pf.memWriteData++[it.pte] } }
  | forward (cell : Option (BitVec 6)) (b : Bool) (it : Item) (rest : List (Bool × Item))
      (cache : Cache) (hq : s.pf.faultFwd = (b, it)::rest)
      (hc : insertRpt s.cache cell it.pte = some cache) :
      Effect s (.forward cell) { s with
        cache := cache
        pf := { s.pf with faultFwd := rest }
        results := s.results++[(it.req, it.pte)] }
  | memWrite (p : PageTableEntry) (rest : List PageTableEntry)
      (hq : s.pf.memWriteData = p::rest) :
      Effect s .memWrite { s with
        dram := writePte s.dram p
        pf := { s.pf with memWriteData := rest }
        writeRsp := s.writeRsp+1 }
  | writeRsp (n : ℕ) (cell : BitVec 4) (rest : List (BitVec 4)) (hn : s.writeRsp = n+1)
      (hq : s.pf.memWriteUser = cell::rest) :
      Effect s .writeRsp { s with
        pf := { s.pf with
          memWriteUser := s.pf.memWriteUser.erase cell, cam := shootDown s.pf.cam cell }
        writeRsp := n }
  | refill (fifo : Fin 3) (ppa : BitVec 40) :
      Effect s (.refill fifo ppa) { s with pf := PageFault.refill s.pf fifo ppa }
  | allocPte (tag : BitVec 60) (l i : Fin 4) (ppa : Option (BitVec 40))
      (hfree : (s.dram (hashFunc tag) l i).allocated = false) :
      Effect s (.allocPte tag l i ppa) { s with
        dram := setSlot s.dram (hashFunc tag) l i
          (allocBits (s.dram (hashFunc tag) l i) tag ppa) }
  | zapPte (tag : BitVec 60) (l i : Fin 4) :
      Effect s (.zapPte tag l i) { s with
        dram := setSlot s.dram (hashFunc tag) l i
          (zapBits (s.dram (hashFunc tag) l i)) }

lemma exec_effect (s u : State) (a : Action) (h : exec s a = some u) : Effect s a u := by
  cases a with
  | lookup req =>
    cases ht : req.reqType with
    | SHOOTDOWN =>
      simp only [exec,lookupCtrl,ht] at h
      rw [← Option.some.inj h]
      simpa only [lookupCtrl,ht] using Effect.shootdown (s := s) req ht
    | LOOKUP =>
      simp only [exec,lookupCtrl,ht] at h
      cases hh : hit s.cache req.tag <;> simp [hh] at h
      · exact h ▸ .miss req ht hh
      · exact h ▸ .hit req ht hh
  | fetch =>
    simp only [exec] at h
    split at h
    · cases h
    · rename_i req rest hq
      exact Option.some.inj h ▸ .fetch req rest hq
  | pageFaultReq =>
    simp only [exec] at h
    split at h
    · cases h
    · rename_i r p rest hq
      exact Option.some.inj h ▸ .arrive r p rest hq
  | merge =>
    obtain ⟨pf,hpf,rfl⟩ := Option.map_eq_some_iff.mp h
    obtain ⟨it,rest,hq,⟨hno,rfl⟩ | ⟨hno,ppa,fifo,hf,rfl⟩⟩ := PageFault.merge_cases s.pf pf hpf
    · exact .pass it rest hq hno
    · exact .fault it rest ppa fifo hq hno hf
  | camWrite cell =>
    obtain ⟨pf,hpf,rfl⟩ := Option.map_eq_some_iff.mp h
    obtain ⟨b,it,rest,hq,⟨rfl,rfl⟩ | ⟨rfl,hid,rfl⟩⟩ := PageFault.cam_write_cases s.pf pf cell hpf
    · exact .camSkip cell it rest hq
    · exact .camWrite cell it rest hq hid
  | report =>
    obtain ⟨pf,hpf,rfl⟩ := Option.map_eq_some_iff.mp h
    obtain ⟨b,it,rest,hq,⟨rfl,rfl⟩ | ⟨rfl,rfl⟩⟩ := PageFault.report_cases s.pf pf hpf
    · exact .reportSkip it rest hq
    · exact .report it rest hq
  | forward cell =>
    simp only [exec] at h
    split at h
    · cases h
    · rename_i b it rest hq
      obtain ⟨cache,hc,rfl⟩ := Option.map_eq_some_iff.mp h
      exact .forward cell b it rest cache hq hc
  | memWrite =>
    simp only [exec] at h
    split at h
    · cases h
    · rename_i p rest hq
      exact Option.some.inj h ▸ .memWrite p rest hq
  | writeRsp =>
    simp only [exec] at h
    split at h
    · rename_i n cell rest hn hq
      obtain ⟨pf,hpf,rfl⟩ := Option.map_eq_some_iff.mp h
      obtain ⟨-,rfl⟩ := PageFault.mem_write_res_cases s.pf pf _ hpf
      exact .writeRsp n cell rest hn hq
    · cases h
  | refill fifo ppa => exact Option.some.inj h ▸ .refill fifo ppa
  | allocPte tag l i ppa =>
    simp only [exec] at h
    split at h
    · cases h
    · rename_i hfree
      exact Option.some.inj h ▸ .allocPte tag l i ppa (by simpa using hfree)
  | zapPte tag l i => exact Option.some.inj h ▸ .zapPte tag l i

def inFlight (s : State) : List (BitVec 60 × PageTableEntry) :=
  s.fetched++(s.pf.lookupResult.map (fun it => (it.req, it.pte))++
    (s.pf.bramWr++(s.pf.faultRpt++s.pf.faultFwd)).map (fun q => (q.2.req, q.2.pte)))

inductive Origin (s u : State) (a : Action) (r : BitVec 60) (p : PageTableEntry) : Prop where
  | kept (h : (r, p) ∈ inFlight s)
  | fetched (req : AddressLookupRequest) (rest : List AddressLookupRequest) (ha : a = .fetch)
      (hfwd : s.fwd = req::rest) (hr : r = req.tag) (hp : p = FetchUnit.fetch s.dram req)
  | looked (q : PageTableEntry) (rest : List (BitVec 60 × PageTableEntry))
      (ha : a = .pageFaultReq) (hfetched : s.fetched = (r, q)::rest)
      (hp : p = PageFault.camLookup s.pf.cam q)
  | filled (it : Item) (rest : List Item) (ppa : BitVec 40) (ha : a = .merge)
      (hlook : s.pf.lookupResult = it::rest) (hr : r = it.req)
      (hno : PageFault.noAlloc it.pte = false) (hp : p = (it.fill ppa).pte)

lemma looked_in_flight (s : State) (it : Item) (rest : List Item)
    (h : s.pf.lookupResult = it::rest) : (it.req, it.pte) ∈ inFlight s := by
  simp [inFlight,h]

lemma head_in_flight (s : State) (r : BitVec 60) (q : PageTableEntry)
    (rest : List (BitVec 60 × PageTableEntry)) (h : s.fetched = (r, q)::rest) :
    (r, q) ∈ inFlight s := by
  simp [inFlight,h]

lemma in_flight_mono (s u : State) (x : BitVec 60 × PageTableEntry) (hx : x ∈ inFlight u)
    (hf : u.fetched ⊆ s.fetched) (hl : u.pf.lookupResult ⊆ s.pf.lookupResult)
    (hb : u.pf.bramWr ⊆ s.pf.bramWr) (hr : u.pf.faultRpt ⊆ s.pf.faultRpt)
    (hw : u.pf.faultFwd ⊆ s.pf.faultFwd) : x ∈ inFlight s := by
  rcases mem_append.mp hx with hx | hx
  · exact mem_append_left _ (hf hx)
  · apply mem_append_right
    rcases mem_append.mp hx with hx | hx
    · exact mem_append_left _ (map_subset _ hl hx)
    · refine mem_append_right _ (map_subset _ ?_ hx)
      intro q hq
      simp only [mem_append] at hq ⊢
      exact hq.imp (fun h => hb h) (Or.imp (fun h => hr h) (fun h => hw h))

lemma fork_in_flight (s : State) (pf : PageFault.State) (b : Bool × Item)
    (x : BitVec 60 × PageTableEntry) (hx : x ∈ inFlight { s with pf := fork pf b }) :
    x ∈ inFlight { s with pf := pf } ∨ x = (b.2.req, b.2.pte) := by
  simp only [inFlight,fork,map_append,mem_append,map_cons,map_nil,
    mem_cons,not_mem_nil,or_false] at hx ⊢
  tauto

lemma entry_origin (s u : State) (a : Action) (h : Effect s a u) (r : BitVec 60)
    (p : PageTableEntry) (hp : (r, p) ∈ inFlight u) : Origin s u a r p := by
  cases h with
  | fetch req rest hq =>
    simp only [inFlight,append_assoc,mem_append,mem_singleton] at hp
    rcases hp with hp | hp | hp
    · exact .kept (mem_append_left _ hp)
    · obtain ⟨rfl,rfl⟩ := Prod.mk.inj hp
      exact .fetched req rest rfl hq rfl rfl
    · exact .kept (mem_append_right _ (mem_append.mpr hp))
  | arrive r' q rest hq =>
    simp only [inFlight,PageFault.arrive,map_append,map_cons,map_nil,
      append_assoc,mem_append,mem_singleton] at hp
    rcases hp with hp | hp | hp | hp
    · exact .kept (mem_append_left _ (by simp [hq,hp]))
    · exact .kept (mem_append_right _ (mem_append_left _ hp))
    · obtain ⟨rfl,rfl⟩ := Prod.mk.inj hp
      exact .looked q rest rfl hq rfl
    · refine .kept (mem_append_right _ (mem_append_right _ ?_))
      simpa [mem_append] using hp
  | pass it rest hq hno =>
    rcases fork_in_flight s _ _ _ hp with hp | hp
    · exact .kept (in_flight_mono s _ _ hp (fun _ h => h)
        (fun _ h => hq ▸ mem_cons_of_mem _ h) (fun _ h => h) (fun _ h => h) (fun _ h => h))
    · exact .kept (hp ▸ looked_in_flight s it rest hq)
  | fault it rest ppa fifo hq hno hf =>
    rcases fork_in_flight s _ _ _ hp with hp | hp
    · exact .kept (in_flight_mono s _ _ hp (fun _ h => h)
        (fun _ h => hq ▸ mem_cons_of_mem _ h) (fun _ h => h) (fun _ h => h) (fun _ h => h))
    · obtain ⟨rfl,rfl⟩ := Prod.mk.inj hp
      exact .filled it rest ppa rfl hq rfl hno rfl
  | camSkip cell it rest hq | camWrite cell it rest hq hid =>
    exact .kept (in_flight_mono s _ _ hp (fun _ h => h) (fun _ h => h)
      (fun _ h => hq ▸ mem_cons_of_mem _ h) (fun _ h => h) (fun _ h => h))
  | reportSkip it rest hq | report it rest hq =>
    exact .kept (in_flight_mono s _ _ hp (fun _ h => h) (fun _ h => h) (fun _ h => h)
      (fun _ h => hq ▸ mem_cons_of_mem _ h) (fun _ h => h))
  | forward cell b it rest cache hq hc =>
    exact .kept (in_flight_mono s _ _ hp (fun _ h => h) (fun _ h => h) (fun _ h => h)
      (fun _ h => h) (fun _ h => hq ▸ mem_cons_of_mem _ h))
  | _ => exact .kept hp

def merged (s : State) : List (Bool × Item) := s.pf.bramWr++(s.pf.faultRpt++s.pf.faultFwd)

lemma merged_in_flight (s : State) (q : Bool × Item) (h : q ∈ merged s) :
    (q.2.req, q.2.pte) ∈ inFlight s :=
  List.mem_append_right _ (List.mem_append_right _ (List.mem_map.mpr ⟨q,h,rfl⟩))

lemma merged_origin (s u : State) (a : Action) (h : Effect s a u) (q : Bool × Item)
    (hq : q ∈ merged u) :
    q ∈ merged s ∨ ∃ it rest, s.pf.lookupResult = it::rest ∧
      ((PageFault.noAlloc it.pte = true ∧ q = (true, it)) ∨
        ∃ ppa, PageFault.noAlloc it.pte = false ∧ q = (false, it.fill ppa)) := by
  simp only [merged,mem_append] at hq ⊢
  cases h with
  | pass it rest hl hno =>
    simp only [fork,mem_append,mem_singleton] at hq
    by_cases hnew : q = (true, it)
    · exact Or.inr ⟨it,rest,hl,Or.inl ⟨hno,hnew⟩⟩
    · simp only [hnew,or_false] at hq
      exact Or.inl hq
  | fault it rest ppa fifo hl hno hf =>
    simp only [fork,mem_append,mem_singleton] at hq
    by_cases hnew : q = (false, it.fill ppa)
    · exact Or.inr ⟨it,rest,hl,Or.inr ⟨ppa,hno,hnew⟩⟩
    · simp only [hnew,or_false] at hq
      exact Or.inl hq
  | camSkip cell it rest hb => exact Or.inl (hq.imp_left fun h => hb ▸ mem_cons_of_mem _ h)
  | camWrite cell it rest hb hid =>
    exact Or.inl (hq.imp_left fun h => hb ▸ mem_cons_of_mem _ h)
  | reportSkip it rest hr | report it rest hr =>
    exact Or.inl (hq.imp_right (Or.imp_left fun h => hr ▸ mem_cons_of_mem _ h))
  | forward cell b it rest cache hw hc =>
    exact Or.inl (hq.imp_right (Or.imp_right fun h => hw ▸ mem_cons_of_mem _ h))
  | _ => exact Or.inl hq

lemma write_data_origin (s u : State) (a : Action) (h : Effect s a u)
    (p : PageTableEntry) (hp : p ∈ u.pf.memWriteData) :
    p ∈ s.pf.memWriteData ∨ ∃ it rest, s.pf.faultRpt = (false, it)::rest ∧ p = it.pte := by
  cases h with
  | report it rest hq =>
    rcases mem_append.mp hp with hp | hp
    · exact Or.inl hp
    · exact Or.inr ⟨it,rest,hq,mem_singleton.mp hp⟩
  | memWrite q rest hq => exact Or.inl (hq ▸ mem_cons_of_mem _ hp)
  | _ => exact Or.inl hp

lemma set_slot_cases (t : HashTable) (b c : BitVec 9) (l i m j : Fin 4) (bits : FullBits) :
    (c = b ∧ m = l ∧ j = i ∧ setSlot t b l i bits c m j = bits) ∨
      setSlot t b l i bits c m j = t c m j := by
  by_cases h : c = b ∧ m = l ∧ j = i
  · exact Or.inl ⟨h.1,h.2.1,h.2.2,if_pos h⟩
  · exact Or.inr (if_neg h)

lemma dram_origin (s u : State) (a : Action) (h : Effect s a u) (b : BitVec 9) (l i : Fin 4) :
    u.dram b l i = s.dram b l i ∨
      (∃ p rest, s.pf.memWriteData = p::rest ∧ b = p.pteAddr ∧ l = 0 ∧ i = 0 ∧
        u.dram b l i = asFullBits p) ∨
      (∃ tag ppa, a = .allocPte tag l i ppa ∧ b = hashFunc tag ∧
        (s.dram b l i).allocated = false ∧ u.dram b l i = allocBits (s.dram b l i) tag ppa) ∨
      ∃ tag, a = .zapPte tag l i ∧ b = hashFunc tag ∧ u.dram b l i = zapBits (s.dram b l i) := by
  cases h with
  | memWrite p rest hq =>
    rcases set_slot_cases s.dram p.pteAddr b 0 0 l i (asFullBits p) with ⟨hb,hl,hi,heq⟩ | heq
    · exact Or.inr (Or.inl ⟨p,rest,hq,hb,hl,hi,heq⟩)
    · exact Or.inl heq
  | allocPte tag m j ppa hfree =>
    rcases set_slot_cases s.dram (hashFunc tag) b m j l i
      (allocBits (s.dram (hashFunc tag) m j) tag ppa) with ⟨rfl,rfl,rfl,heq⟩ | heq
    · exact Or.inr (Or.inr (Or.inl ⟨tag,ppa,rfl,rfl,hfree,heq⟩))
    · exact Or.inl heq
  | zapPte tag m j =>
    rcases set_slot_cases s.dram (hashFunc tag) b m j l i
      (zapBits (s.dram (hashFunc tag) m j)) with ⟨rfl,rfl,rfl,heq⟩ | heq
    · exact Or.inr (Or.inr (Or.inr ⟨tag,rfl,rfl,heq⟩))
    · exact Or.inl heq
  | _ => exact Or.inl rfl

lemma insert_rpt_cases (cache out : Cache) (cell : Option (BitVec 6)) (pte : PageTableEntry)
    (h : insertRpt cache cell pte = some out) :
    out = cache ∨ ∃ c, pte.allocated = true ∧ out = insertReq cache c pte := by
  unfold insertRpt at h
  split at h
  · rename_i ha
    split at h
    · exact Or.inl (Option.some.inj h).symm
    · rename_i c
      split at h
      · exact Or.inr ⟨c,ha,(Option.some.inj h).symm⟩
      · cases h
  · exact Or.inl (Option.some.inj h).symm

section

variable (s u : State) (a : Action) (h : Effect s a u)
include s u a h

lemma cache_origin (i : BitVec 6) (hu : (u.cache.cells i).used = true) :
    u.cache.cells i = s.cache.cells i ∨
      ∃ b it rest, s.pf.faultFwd = (b, it)::rest ∧ it.pte.allocated = true ∧
        u.cache.cells i = ⟨true, it.pte.tag, getTagMask it.pte.pageType, asCompactBits it.pte⟩ := by
  cases h with
  | shootdown req ht =>
    left
    simp only [lookupCtrl,ht] at hu ⊢
    split at hu
    · rename_i hh
      rw [if_pos hh]
      by_cases hi : i = rdaddr s.cache req.tag
      · simp [shootDown,hi] at hu
      · simp [shootDown,hi]
    · rename_i hh
      rw [if_neg hh]
  | forward cell b it rest cache hq hc =>
    rcases insert_rpt_cases s.cache cache cell it.pte hc with rfl | ⟨c,ha,rfl⟩
    · exact Or.inl rfl
    · by_cases hi : i = c
      · exact Or.inr ⟨b,it,rest,hq,ha,by simp [insertReq,write,hi]⟩
      · exact Or.inl (by simp [insertReq,write,hi])
  | _ => exact Or.inl rfl

lemma cam_origin (i : BitVec 4) :
    u.pf.cam.cells i = s.pf.cam.cells i ∨
      u.pf.cam.cells i = { s.pf.cam.cells i with used := false } ∨
      ∃ it rest, s.pf.bramWr = (false, it)::rest ∧
        u.pf.cam.cells i = ⟨true, it.pte.tag, 0, asCompactBits it.pte⟩ := by
  cases h with
  | camWrite cell it rest hq hid =>
    by_cases hi : i = cell
    · exact Or.inr (Or.inr ⟨it,rest,hq,by simp [write,hi]⟩)
    · exact Or.inl (by simp [write,hi])
  | writeRsp n cell rest hn hq =>
    by_cases hi : i = cell
    · exact Or.inr (Or.inl (by simp [shootDown,hi]))
    · exact Or.inl (by simp [shootDown,hi])
  | _ => exact Or.inl rfl

lemma result_origin :
    u.results = s.results ∨
      (∃ req, a = .lookup req ∧ req.reqType = .LOOKUP ∧ hit s.cache req.tag = true ∧
        u.results = s.results++[(req.tag,
        { compact emptyPte (rdvalue s.cache req.tag) with seqId := req.seqId })]) ∨
      ∃ b it rest, s.pf.faultFwd = (b, it)::rest ∧ u.results = s.results++[(it.req, it.pte)] := by
  cases h with
  | hit req ht hh => exact Or.inr (Or.inl ⟨req,rfl,ht,hh,rfl⟩)
  | forward cell b it rest cache hq hc => exact Or.inr (Or.inr ⟨b,it,rest,hq,rfl⟩)
  | _ => exact Or.inl rfl

end

end Clio.AddressLookup
