import Clio.KeyValueChain

/-!
# Requests of the key-value store

A request walks down the chain of its hash.
-/

namespace Clio.KeyValueServe

open UnackedBuffer Memory KeyValueEngine KeyValueLine KeyValueChain

section

variable (A : Allocator) (mem : ℕ → Byte) (n : ℕ) (data : List Byte)

variable (fuel : ℕ)

lemma serve_stop (e : Engine) (b : BucketCommand) (mem' : ℕ → Byte) (k : ℕ) (signals : List Bool)
    (out : Output) (h : lineStep A e b data = (busy mem' k signals,out)) :
    serve A (fuel+1) e b data = (busy mem' k signals,out) := by
  rw [serve,h]
  rfl

lemma serve_loop (e : Engine) (b c : BucketCommand) (signals : List Bool) (out : Output)
    (h : lineStep A e b data =
      ({ busy mem n signals with loopHeaders := [c], loopData := [data] },out)) :
    serve A (fuel+1) e b data = ((serve A fuel (busy mem n signals) c data).1,
        out.append (serve A fuel (busy mem n signals) c data).2) := by
  rw [serve,h]
  rfl

lemma mem_hits (b i : ℕ) (k : Key) : i ∈ hits mem b k ↔
    i < 7 ∧ (entryAt mem b i).valid = true ∧ keyAt mem (entryAt mem b i).ptr.toNat = k := by
  simp [hits]

def Fetched (l : List ℕ) (b : BucketCommand) (accesses : List Access) : Prop :=
  ∀ a ∈ accesses, (∃ c ∈ l, ∃ i < 7, (entryAt mem c i).valid = true ∧
    a.ptr = (entryAt mem c i).ptr) ∧ (a.len = 8 ∨ b.cmd ≠ .delete ∧ a.len = b.valueSize+8)

variable (l : List ℕ)

variable (b : BucketCommand)

lemma fetches_fetched (hb : b.cmd ≠ .write) (hl : b.entryAddr.toNat ∈ l) :
    Fetched mem l b (fetches mem b data) := by
  intro a ha
  obtain ⟨c,hc,rfl⟩ := List.mem_map.mp ha
  obtain ⟨hc,hneed⟩ := List.mem_filter.mp hc
  rw [compared_eq] at hc
  obtain ⟨s,hs,rfl⟩ := List.mem_map.mp hc
  have hentry : (comparedOne mem b data s).entry =
      (entryCommand (lineAt mem b.entryAddr.toNat) b (keyOf data) s).entry := by
    unfold comparedOne fetchMatch
    split_ifs <;> rfl
  have hcmd : (comparedOne mem b data s).cmd = b.cmd := by
    unfold comparedOne fetchMatch
    split_ifs <;> rfl
  have hsize : (comparedOne mem b data s).fetchSize = 8 ∨
      b.cmd ≠ .delete ∧ (comparedOne mem b data s).fetchSize = b.valueSize+8 := by
    unfold EntryCommand.fetchSize EntryCommand.kvSize
    rw [hentry]
    split_ifs with his
    · have hread : b.cmd = .read := by
        rw [← hcmd]
        exact of_decide_eq_true his
      exact .inr ⟨by simp [hread],rfl⟩
    · exact .inl rfl
  have hvalid : (comparedOne mem b data s).entry.valid = true := (Bool.and_eq_true_iff.mp hneed).2
  rw [hentry] at hvalid
  simp only [entryCommand,if_neg hb,Bool.and_eq_true,lineAt] at hvalid
  refine ⟨⟨b.entryAddr.toNat,hl,s.1.getD 0,?_,hvalid.1,?_⟩,hsize⟩
  · obtain ⟨i,hi⟩ := Option.isSome_iff_exists.mp hvalid.2
    rw [hi,Option.getD_some]
    have hmem : some i ∈ (commits (matchBits (lineAt mem b.entryAddr.toNat) b.cmd
        (keyOf data))).map Prod.fst := List.mem_map.mpr ⟨s,hs,hi⟩
    have hall := commits_filter (fun _ => true) (matchBits (lineAt mem b.entryAddr.toNat) b.cmd
      (keyOf data))
    have hin : some i ∈ ((matchBits (lineAt mem b.entryAddr.toNat) b.cmd
        (keyOf data)).filter (fun _ => true)).map some := by
      rw [← hall]
      exact List.mem_map.mpr ⟨s,List.mem_filter.mpr ⟨hs,by simp [hi]⟩,hi⟩
    simp only [List.filter_true,List.mem_map,Option.some.injEq,exists_eq_right] at hin
    exact List.mem_range.mp (List.mem_filter.mp hin).1
  · rw [hentry]
    rfl

inductive LookupResult (l : List ℕ) (b : BucketCommand) : Engine × Output → Prop
  | hit (addr : BitVec 32) (i : ℕ) (signals : List Bool) (accesses : List Access)
      (hmem : addr.toNat ∈ l) (hhit : hits mem addr.toNat (keyOf data) = [i])
      (hready : Ready b signals) (hacc : Fetched mem l b accesses) :
      LookupResult l b (busy (afterHit mem { b with entryAddr := addr } data i) n signals,
        { replies := [⟨b.id,true⟩]
          packets := if b.cmd = .read ∧ (8 : BitVec 16) < b.valueSize+8 then
            [load mem ((entryAt mem addr.toNat i).ptr.toNat+8) ((b.valueSize+8).toNat-8)] else []
          accesses := accesses })
  | miss (signals : List Bool) (accesses : List Access)
      (hmiss : ∀ c ∈ l, hits mem c (keyOf data) = [])
      (hready : Ready b signals) (hacc : Fetched mem l b accesses) :
      LookupResult l b (busy mem n signals,
        { replies := [⟨b.id,false⟩], accesses := accesses })

lemma fetched_append (xs ys : List Access) (hx : Fetched mem l b xs) (hy : Fetched mem l b ys) :
    Fetched mem l b (xs++ys) := by
  intro a ha
  rcases List.mem_append.mp ha with ha | ha
  · exact hx a ha
  · exact hy a ha

lemma fetched_cons (c : ℕ) (l : List ℕ) (b : BucketCommand) (xs : List Access)
    (hx : Fetched mem l b xs) : Fetched mem (c::l) b xs := by
  intro a ha
  obtain ⟨⟨d,hd,h⟩,hlen⟩ := hx a ha
  exact ⟨⟨d,List.mem_cons_of_mem _ hd,h⟩,hlen⟩

variable (hitSignals : List Bool)

lemma serve_here (hl : b.entryAddr.toNat ∈ l) (hready : Ready b hitSignals) (hb : b.cmd ≠ .write)
    (hd : Digested mem b.entryAddr.toNat)
    (hone : (hits mem b.entryAddr.toNat (keyOf data)).length ≤ 1) {i : ℕ} {is : List ℕ}
    (hh : hits mem b.entryAddr.toNat (keyOf data) = i::is) :
    LookupResult mem n data l b (serve A (fuel+1) (busy mem n hitSignals) b data) := by
  have hhit : hits mem b.entryAddr.toNat (keyOf data) = [i] := by
    rw [hh] at hone ⊢
    have hnil : is = [] := List.eq_nil_of_length_eq_zero (by simpa using hone)
    rw [hnil]
  obtain ⟨signals,hsignals,hstep⟩ := line_step_hit A mem n b data hitSignals hready hb hd i hhit
  rw [serve_stop A data fuel _ b _ n signals _ hstep]
  apply LookupResult.hit b.entryAddr i signals _ hl hhit hsignals
  apply fetched_append mem l b _ _ (fetches_fetched mem data l b hb hl)
  intro a ha
  split_ifs at ha with hu
  · have hin : i ∈ hits mem b.entryAddr.toNat (keyOf data) := by rw [hhit]; simp
    obtain ⟨hi,hv,-⟩ := (mem_hits mem _ i _).mp hin
    rw [List.mem_singleton.mp ha]
    exact ⟨⟨b.entryAddr.toNat,hl,i,hi,hv,rfl⟩,.inr ⟨by simp [hu],rfl⟩⟩
  · cases ha

lemma serve_lookup (hl : Linked mem l) (hhead : l.head? = some b.entryAddr.toNat)
    (hfuel : l.length ≤ fuel) (hready : Ready b hitSignals) (hb : b.cmd ≠ .write)
    (hd : ∀ c ∈ l, Digested mem c) (hone : ∀ c ∈ l, (hits mem c (keyOf data)).length ≤ 1) :
    LookupResult mem n data l b (serve A fuel (busy mem n hitSignals) b data) := by
  induction l using Linked.induct generalizing fuel b hitSignals with
  | case1 => cases hhead
  | case2 c =>
    have hc : b.entryAddr.toNat = c := by simpa using hhead.symm
    subst hc
    obtain ⟨fuel,rfl⟩ : ∃ k, fuel = k+1 := ⟨fuel-1,by simp at hfuel; omega⟩
    cases hh : hits mem b.entryAddr.toNat (keyOf data) with
    | nil =>
      obtain ⟨signals,hsignals,hstep⟩ := line_step_miss A mem n b data hitSignals hready hb
        (hd _ (by simp)) hh
      have hlast : (entryAt mem b.entryAddr.toNat 7).valid = false := hl
      rw [hlast] at hstep
      rw [serve_stop A data fuel _ b mem n signals _ hstep]
      exact .miss signals _ (by simpa using hh) hsignals
        (fetches_fetched mem data _ b hb (by simp))
    | cons i is =>
      exact serve_here A mem n data fuel _ b hitSignals (by simp) hready hb (hd _ (by simp))
        (hone _ (by simp)) hh
  | case3 c d l ih =>
    have hc : b.entryAddr.toNat = c := by simpa using hhead.symm
    subst hc
    obtain ⟨fuel,rfl⟩ : ∃ k, fuel = k+1 := ⟨fuel-1,by simp at hfuel; omega⟩
    obtain ⟨hv,hp,hrest⟩ := hl
    cases hh : hits mem b.entryAddr.toNat (keyOf data) with
    | nil =>
      obtain ⟨signals,hsignals,hstep⟩ := line_step_miss A mem n b data hitSignals hready hb
        (hd _ (by simp)) hh
      rw [hv,if_pos rfl] at hstep
      -- the link only matters as the address of the next line
      generalize (entryAt mem b.entryAddr.toNat 7).ptr = next at hp hstep
      rw [serve_loop A mem n data fuel _ b _ signals _ hstep]
      have hnext := ih fuel { b with entryAddr := next } signals
        hrest (by simp [hp]) (by simpa using hfuel) hsignals hb
        (fun x hx => hd x (List.mem_cons_of_mem _ hx))
        (fun x hx => hone x (List.mem_cons_of_mem _ hx))
      have hfirst := fetches_fetched mem data (b.entryAddr.toNat::d::l) b hb (by simp)
      generalize serve A fuel (busy mem n signals) { b with entryAddr := next } data = r
        at hnext ⊢
      cases hnext with
      | hit addr i signals accesses hmem hhit hready' hacc =>
        exact .hit addr i signals _ (List.mem_cons_of_mem _ hmem) hhit hready'
          (fetched_append mem _ b _ _ hfirst (fetched_cons mem _ _ b _ hacc))
      | miss signals accesses hmiss hready' hacc =>
        refine .miss signals _ ?_ hready'
          (fetched_append mem _ b _ _ hfirst (fetched_cons mem _ _ b _ hacc))
        intro x hx
        rcases List.mem_cons.mp hx with rfl | hx
        · exact hh
        · exact hmiss x hx
    | cons i is =>
      exact serve_here A mem n data fuel _ b hitSignals (by simp) hready hb (hd _ (by simp))
        (hone _ (by simp)) hh

inductive WriteResult (l : List ℕ) (b : BucketCommand) : Engine × Output → Prop
  | free (addr : BitVec 32) (i : ℕ) (hmem : addr.toNat ∈ l)
      (hfree : freeSlot (lineAt mem addr.toNat) = some i) :
      WriteResult l b (idle (putEntry (store mem (A.block n).toNat (data.take (kvSize b).toNat))
          (addr+BitVec.ofNat 32 (i*8)).toNat (newEntry b data (A.block n))) (n+1),
        { replies := [⟨b.id,true⟩], accesses := [⟨A.block n,kvSize b⟩] })
  | append (addr : BitVec 32) (pre : List ℕ) (hl : l = pre++[addr.toNat]) :
      WriteResult l b (idle (putEntry (store (putEntry mem (addr+56).toNat
          (linkEntry (A.block (n+1)))) (A.block n).toNat (data.take (kvSize b).toNat))
          (A.block (n+1)).toNat (newEntry b data (A.block n))) (n+2),
        { replies := [⟨b.id,true⟩], accesses := [⟨A.block n,kvSize b⟩] })

lemma serve_write (hl : Linked mem l) (hhead : l.head? = some b.entryAddr.toNat)
    (hfuel : l.length ≤ fuel) (hb : b.cmd = .write) :
    WriteResult A mem n data l b (serve A fuel (idle mem n) b data) := by
  induction l using Linked.induct generalizing fuel b with
  | case1 => cases hhead
  | case2 c =>
    have hc : b.entryAddr.toNat = c := by simpa using hhead.symm
    subst hc
    obtain ⟨fuel,rfl⟩ : ∃ k, fuel = k+1 := ⟨fuel-1,by simp at hfuel; omega⟩
    cases hf : freeSlot (lineAt mem b.entryAddr.toNat) with
    | some i =>
      rw [serve_stop A data fuel _ b _ _ [] _ (line_step_write_free A mem n b data hb i hf)]
      exact .free b.entryAddr i (by simp) hf
    | none =>
      have hlast : (entryAt mem b.entryAddr.toNat 7).valid = false := hl
      rw [serve_stop A data fuel _ b _ _ [] _
        (line_step_write_append A mem n b data hb hf hlast)]
      exact .append b.entryAddr [] rfl
  | case3 c d l ih =>
    have hc : b.entryAddr.toNat = c := by simpa using hhead.symm
    subst hc
    obtain ⟨fuel,rfl⟩ : ∃ k, fuel = k+1 := ⟨fuel-1,by simp at hfuel; omega⟩
    obtain ⟨hv,hp,hrest⟩ := hl
    cases hf : freeSlot (lineAt mem b.entryAddr.toNat) with
    | some i =>
      rw [serve_stop A data fuel _ b _ _ [] _ (line_step_write_free A mem n b data hb i hf)]
      exact .free b.entryAddr i (by simp) hf
    | none =>
      have hstep := line_step_write_next A mem n b data hb hf hv
      generalize (entryAt mem b.entryAddr.toNat 7).ptr = next at hp hstep
      rw [serve_loop A mem n data fuel _ b _ [] _ hstep]
      have hnext := ih fuel { b with entryAddr := next } hrest
        (by simp [hp]) (by simpa using hfuel) hb
      rw [idle] at hnext
      generalize serve A fuel (busy mem n []) { b with entryAddr := next } data = r at hnext ⊢
      cases hnext with
      | free addr i hmem hfree => exact .free addr i (List.mem_cons_of_mem _ hmem) hfree
      | append addr pre hl =>
        exact .append addr (b.entryAddr.toNat::pre) (by rw [hl]; rfl)

end

end Clio.KeyValueServe
