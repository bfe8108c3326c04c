import Clio.Errno
import Clio.Machine

/-!
# Round-robin selection of a board

The monitor numbers the nodes that join and hands out boards by number.
-/

namespace Clio.BoardSelect

open List Machine Function Errno

def flagBoard : BitVec 64 := 0x1
def flagHost : BitVec 64 := 0x2
def flagDummy : BitVec 64 := 0x8
def flagLocalhost : BitVec 64 := 0x10
def flagAllocated : BitVec 64 := 0x20
def nrMaxBoards : ℕ := 128
def nrAllocBoardBase : ℕ := 2

/-- The tables of boards, their counter and the cursor of the search. -/
structure Cluster where
  boardIdMap : ℕ → Bool
  flags : ℕ → BitVec 64
  nrMaxBoardId : ℕ
  nrOnlineBoards : ℕ
  nrAllocBoardIndex : ℕ

def allocBoardInfo (m : Cluster) : Option (Cluster × ℕ) :=
  ((range nrMaxBoards).find? fun bit => !m.boardIdMap bit).map fun bit =>
    ({ m with boardIdMap := update m.boardIdMap bit true, nrMaxBoardId := bit,
              flags := update m.flags bit flagAllocated },bit)

/-- A new node with its type. -/
def addBoard (m : Cluster) (type : BitVec 64) : Option Cluster :=
  (allocBoardInfo m).map fun p =>
    { p.1 with flags := update p.1.flags p.2 (p.1.flags p.2 ||| type) }

/-- The flags of the board stay. -/
def removeBoard (m : Cluster) (id : ℕ) : Cluster :=
  { m with boardIdMap := update m.boardIdMap id false,
           nrMaxBoardId := if id = m.nrMaxBoardId then m.nrMaxBoardId-1 else m.nrMaxBoardId }

/-- A node that joins is not counted, whatever its type. -/
def handleJoinCluster (m : Cluster) (type : BitVec 64) (macFound : Bool) : ℤ × Cluster :=
  if type ≠ flagHost ∧ type ≠ flagBoard ∨ macFound = false then (-EINVAL,m)
  else match addBoard m type with
    | none => (-ENOMEM,m)
    | some m => (0,m)

/-- The board is counted here and once more by `handle_new_node`. -/
def manuallyAddNewNode (m : Cluster) (macFound : Bool) : Cluster :=
  let m := { m with nrOnlineBoards := m.nrOnlineBoards+1 }
  match if macFound then addBoard m flagBoard else none with
  | none => m
  | some m => { m with nrOnlineBoards := m.nrOnlineBoards+1 }

def isBoard (m : Cluster) (id : ℕ) : Bool := m.flags id &&& flagBoard != 0

def nextIndex (m : Cluster) : ℕ :=
  if m.nrAllocBoardIndex = m.nrMaxBoardId then nrAllocBoardBase else m.nrAllocBoardIndex+1

/-- There is no result when the index leaves the array. -/
def findLoop : ℕ → Cluster → Option (ℕ × Cluster)
  | 0, _ => none
  | n+1, m =>
      if m.nrAllocBoardIndex < nrMaxBoards then
        let next := { m with nrAllocBoardIndex := nextIndex m }
        if isBoard m m.nrAllocBoardIndex then some (m.nrAllocBoardIndex,next) else findLoop n next
      else none

def handleAllocFindBoard (fuel : ℕ) (m : Cluster) : Option (Option ℕ × Cluster) :=
  if m.nrOnlineBoards = 0 then some (none,m)
  else (findLoop fuel m).map fun p => (some p.1,p.2)

inductive Action where
  | join (type : BitVec 64) (macFound : Bool)
  | manual (macFound : Bool)
  | remove (id : ℕ)
  | find (fuel : ℕ)
  deriving DecidableEq, Repr

def exec (m : Cluster) : Action → Option Cluster
  | .join type macFound => some (handleJoinCluster m type macFound).2
  | .manual macFound => some (manuallyAddNewNode m macFound)
  | .remove id => if nrAllocBoardBase ≤ id ∧ m.boardIdMap id then some (removeBoard m id) else none
  | .find fuel => (handleAllocFindBoard fuel m).map (·.2)

/-- The management session and the local host have the first numbers. -/
def start : Cluster :=
  ⟨fun i => decide (i < 2),fun i => if i = 0 then flagDummy ||| flagAllocated
    else if i = 1 then flagLocalhost ||| flagAllocated else 0,1,0,nrAllocBoardBase⟩

def registered (m : Cluster) : List ℕ :=
  (range nrMaxBoards).filter fun i => m.boardIdMap i && isBoard m i

def finds (fuel : ℕ) : ℕ → Cluster → Option (List (Option ℕ))
  | 0, _ => some []
  | n+1, m => do
      let (id,m) ← handleAllocFindBoard fuel m
      return id::(← finds fuel n m)

/-- As many calls as there are boards return every board once. -/
def Fair (m : Cluster) : Prop :=
  ∃ fuel ids, finds fuel (registered m).length m = some (ids.map some) ∧ ids ~ registered m

/-- No number was given back. -/
structure Numbered (n : ℕ) (m : Cluster) : Prop where
  ids : ∀ i, m.boardIdMap i = decide (i < n)
  most : m.nrMaxBoardId+1 = n
  low : 2 ≤ n
  high : n ≤ nrMaxBoards
  base : 2 ≤ m.nrAllocBoardIndex
  index : m.nrAllocBoardIndex < max n 3
  boards : ∀ i, isBoard m i = true → 2 ≤ i ∧ i < n

section

variable {n : ℕ} {m u : Cluster}

lemma online_numbered (h : Numbered n m) (k : ℕ) : Numbered n { m with nrOnlineBoards := k } :=
  ⟨h.ids,h.most,h.low,h.high,h.base,h.index,h.boards⟩

lemma add_numbered (h : Numbered n m) (type : BitVec 64) (hu : addBoard m type = some u) :
    Numbered (n+1) u := by
  obtain ⟨p,hp,rfl⟩ := Option.map_eq_some_iff.mp hu
  obtain ⟨bit,hbit,rfl⟩ := Option.map_eq_some_iff.mp hp
  obtain ⟨hfree,hmem,hless⟩ := find?_range_eq_some.mp hbit
  simp only [h.ids,Bool.not_eq_true',decide_eq_false_iff_not,mem_range,Bool.not_not,
    decide_eq_true_eq] at hfree hmem hless
  obtain rfl : bit = n := by
    by_contra hne
    have := hless n (by omega)
    omega
  have hlow := h.low
  refine ⟨fun i => ?_,rfl,by omega,hmem,h.base,?_,fun i hi => ?_⟩
  · simp only [update_apply,h.ids]
    grind
  · have := h.index
    show m.nrAllocBoardIndex < _
    omega
  · by_cases hib : i = bit
    · omega
    · have := h.boards i (by simpa [isBoard,hib] using hi)
      omega

lemma find_loop_result (fuel id : ℕ) (hu : findLoop fuel m = some (id,u)) :
    isBoard m id = true ∧
      u = { m with
        nrAllocBoardIndex := if id = m.nrMaxBoardId then nrAllocBoardBase else id+1 } := by
  induction fuel generalizing m with
  | zero => cases hu
  | succ fuel ih =>
    simp only [findLoop] at hu
    split_ifs at hu with hlt hb
    · cases hu
      exact ⟨hb,rfl⟩
    · obtain ⟨hfound,hindex⟩ := ih hu
      exact ⟨hfound,hindex⟩

lemma exec_numbered (a : Action) (h : ∃ n, Numbered n m) (ha : ∀ id, a ≠ .remove id)
    (hu : exec m a = some u) : ∃ n, Numbered n u := by
  obtain ⟨n,h⟩ := h
  cases a with
  | remove id => exact absurd rfl (ha id)
  | join type macFound =>
    cases hu
    simp only [handleJoinCluster]
    split_ifs
    · exact ⟨n,h⟩
    · cases hadd : addBoard m type with
      | none => exact ⟨n,h⟩
      | some u => exact ⟨n+1,add_numbered h type hadd⟩
  | manual macFound =>
    cases hu
    have h := online_numbered h (m.nrOnlineBoards+1)
    simp only [manuallyAddNewNode]
    split
    · exact ⟨n,h⟩
    · next u hadd =>
      split_ifs at hadd
      exact ⟨n+1,online_numbered (add_numbered h flagBoard hadd) _⟩
  | find fuel =>
    obtain ⟨p,hp,rfl⟩ := Option.map_eq_some_iff.mp hu
    simp only [handleAllocFindBoard] at hp
    split_ifs at hp
    · cases hp
      exact ⟨n,h⟩
    · obtain ⟨⟨id,u⟩,hloop,rfl⟩ := Option.map_eq_some_iff.mp hp
      obtain ⟨hb,rfl⟩ := find_loop_result fuel id hloop
      have := h.boards id hb
      have := h.most
      refine ⟨n,h.ids,h.most,h.low,h.high,?_,?_,h.boards⟩ <;> simp only [nrAllocBoardBase] <;>
        split <;> omega

end

/-- The numbers that the index runs through. -/
def Path (last : ℕ) : ℕ → List ℕ → Prop
  | _, [] => True
  | i, j::l => j = i ∧ Path last (if i = last then nrAllocBoardBase else i+1) l

lemma path_range (last k i : ℕ) (rest : List ℕ) (hle : i+k ≤ last)
    (hend : i+k = last → Path last nrAllocBoardBase rest) (hmore : i+k < last → rest = []) :
    Path last i (range' i (k+1)++rest) := by
  induction k generalizing i with
  | zero =>
    refine ⟨rfl,?_⟩
    split
    · next h => exact hend h
    · next h =>
      rw [hmore (by omega)]
      trivial
  | succ k ih =>
    refine ⟨rfl,?_⟩
    rw [if_neg (by omega)]
    exact ih (i+1) (by omega) (fun h => hend (by omega)) fun h => hmore (by omega)

section

variable (m : Cluster) (l : List ℕ) (hl : ∀ i ∈ l, i < nrMaxBoards)
  (hpath : Path m.nrMaxBoardId m.nrAllocBoardIndex l) (fuel : ℕ) (hfuel : l.length ≤ fuel)
include hl hpath hfuel

/-- The search stops at the first board ahead of the cursor. -/
lemma find_loop_path (hsome : l.filter (isBoard m) ≠ []) :
    ∃ b l' u, l.filter (isBoard m) = b::l'.filter (isBoard m) ∧ l'.length < l.length ∧
      (∀ i ∈ l', i < nrMaxBoards) ∧ findLoop fuel m = some (b,u) ∧
      Path m.nrMaxBoardId u.nrAllocBoardIndex l' := by
  induction l generalizing m fuel with
  | nil => exact absurd rfl hsome
  | cons i l ih =>
    obtain ⟨rfl,hpath⟩ := hpath
    obtain ⟨fuel,rfl⟩ := Nat.exists_eq_add_of_lt hfuel
    have hi := hl m.nrAllocBoardIndex (by simp)
    by_cases hb : isBoard m m.nrAllocBoardIndex = true
    · refine ⟨_,l,{ m with nrAllocBoardIndex := nextIndex m },by rw [filter_cons_of_pos hb],by simp,
        fun i h => hl i (by simp [h]),?_,hpath⟩
      simp [findLoop,hi,hb]
    · rw [filter_cons_of_neg hb] at hsome ⊢
      obtain ⟨b,l',u,hfilter,hlen,hl',hfind,hpath'⟩ := ih
        { m with nrAllocBoardIndex := nextIndex m } (fun i h => hl i (by simp [h])) hpath _
        (Nat.le_add_right _ fuel) hsome
      refine ⟨b,l',u,hfilter,by simp; omega,hl',?_,hpath'⟩
      rw [findLoop,if_pos hi,if_neg hb]
      exact hfind

lemma finds_path (hon : m.nrOnlineBoards ≠ 0) :
    finds fuel (l.filter (isBoard m)).length m = some ((l.filter (isBoard m)).map some) := by
  induction hk : l.length using Nat.strong_induction_on generalizing l m with
  | _ k ih =>
    by_cases hsome : l.filter (isBoard m) = []
    · rw [hsome]
      rfl
    · obtain ⟨b,l',u,hfilter,hlen,hl',hfind,hpath'⟩ := find_loop_path m l hl hpath fuel hfuel hsome
      obtain ⟨-,hu⟩ := find_loop_result fuel b hfind
      subst hu
      have hrest := ih l'.length (by omega) { m with nrAllocBoardIndex := if b = m.nrMaxBoardId
        then nrAllocBoardBase else b+1 } l' hl' hpath' (by omega) hon rfl
      rw [hfilter,length_cons,finds,handleAllocFindBoard,if_neg hon,hfind]
      show (finds fuel _ _).bind _ = _
      rw [show finds fuel (l'.filter (isBoard m)).length _ = _ from hrest]
      rfl

end

/-- Every board is found in turn if no number was given back and the counter was set. -/
theorem boards_in_turn (actions : List Action) (m : Cluster)
    (hrun : run exec actions start = some m) (hkept : ∀ id, .remove id ∉ actions)
    (honline : m.nrOnlineBoards ≠ 0) (hone : registered m ≠ []) : Fair m := by
  obtain ⟨n,h⟩ := run_invariant exec (fun _ a => ∀ id, a ≠ .remove id) (fun m => ∃ n, Numbered n m)
    (fun m a u h ha hu => exec_numbered a h ha hu) actions start m
    ⟨2,fun _ => rfl,rfl,le_rfl,by decide,le_rfl,by decide,fun i hi => by
      simp only [isBoard,start] at hi
      split_ifs at hi <;> simp [flagDummy,flagLocalhost,flagAllocated,flagBoard] at hi⟩
    (guarded_of_forall _ _ _ _ fun a ha _ id heq => hkept id (heq ▸ ha)) hrun
  obtain ⟨b,hb⟩ := exists_mem_of_ne_nil _ hone
  simp only [registered,mem_filter,Bool.and_eq_true] at hb
  have hbn := h.boards b hb.2.2
  have hidx := h.index
  have hbase := h.base
  have hmost := h.most
  have hhigh := h.high
  have htwo : nrAllocBoardBase = 2 := rfl
  obtain ⟨j,hj⟩ := Nat.exists_eq_add_of_lt (show m.nrAllocBoardIndex < n by omega)
  obtain ⟨i,hi⟩ := Nat.exists_eq_add_of_le hbase
  -- the numbers from the cursor to the last one, then those below the cursor
  let l := range' m.nrAllocBoardIndex (j+1)++range' nrAllocBoardBase i
  have hpath : Path m.nrMaxBoardId m.nrAllocBoardIndex l := by
    refine path_range _ j _ _ (by omega) (fun _ => ?_) fun _ => by omega
    cases i with
    | zero => trivial
    | succ i =>
      simpa using path_range m.nrMaxBoardId i nrAllocBoardBase [] (by omega) (fun _ => trivial)
        fun _ => rfl
  have hl : ∀ i ∈ l, i < nrMaxBoards := by
    intro i hi
    simp only [l,mem_append,mem_range'_1] at hi
    omega
  have hperm : l.filter (isBoard m) ~ registered m := by
    have hnodup : l.Nodup := by
      simp only [l,nodup_append,mem_range'_1]
      grind
    refine (perm_ext_iff_of_nodup (hnodup.filter _) (nodup_range.filter _)).mpr fun i => ?_
    have := h.boards i
    simp only [l,mem_filter,mem_append,mem_range'_1,mem_range,h.ids,Bool.and_eq_true,
      decide_eq_true_eq]
    grind
  exact ⟨l.length,_,hperm.length_eq ▸ finds_path m l hl hpath _ le_rfl honline,hperm⟩

theorem boards_in_turn_two :
    ∃ m, run exec [.manual true, .join flagHost true, .join flagBoard true] start = some m ∧
      registered m = [2,4] ∧ Fair m :=
  ⟨_,rfl,by decide,boards_in_turn [.manual true,.join flagHost true,.join flagBoard true] _ rfl
    (by simp) (by decide) (by decide)⟩

/-- A board that joins is not counted, and one that was removed is still returned. -/
theorem joined_board_not_found :
    (∃ m, run exec [.join flagBoard true] start = some m ∧ registered m = [2] ∧ ¬Fair m) ∧
      ∃ m, run exec [.manual true, .manual true, .remove 2] start = some m ∧ registered m = [3] ∧
        (handleAllocFindBoard 1 m).map (·.1) = some (some 2) := by
  refine ⟨⟨_,rfl,by decide,?_⟩,_,rfl,by decide,by decide⟩
  rintro ⟨fuel,ids,hfind,-⟩
  cases ids with
  | nil => cases hfind
  | cons i ids => cases hfind

end Clio.BoardSelect
