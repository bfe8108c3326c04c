import Clio.CoreMemTypes

/-!
# Bucket fetch

A bucket of the hash table in board memory is read as four lines of four entries.
-/

namespace Clio.FetchUnit

open CoreMemTypes

inductive LookupType where
  | LOOKUP
  | SHOOTDOWN
  deriving DecidableEq, Repr

structure AddressLookupRequest where
  seqId : BitVec 16
  tag : BitVec 60
  reqType : LookupType
  deriving DecidableEq, Repr

structure FullBits where
  ppa : BitVec 40
  pageType : BitVec 2
  allocated : Bool
  used : Bool
  tag : BitVec 60
  deriving DecidableEq, Repr

instance neZeroFour : NeZero (4 : ℕ) := ⟨by decide⟩

abbrev Line := Fin 4 → FullBits
abbrev Bucket := Fin 4 → Line
abbrev HashTable := BitVec 9 → Bucket

def emptyBits : FullBits := ⟨0, 0, false, false, 0⟩

def fromFullBits (b : FullBits) : PageTableEntry :=
  ⟨0, b.used, b.allocated, b.pageType, b.ppa, b.tag, 0⟩

def asFullBits (pte : PageTableEntry) : FullBits :=
  ⟨pte.ppa, pte.pageType, pte.allocated, pte.used, pte.tag⟩

def hashFunc (tag : BitVec 60) : BitVec 9 := (tag2fullTag tag >>> pageOffset 0).setWidth 9

def isMatch (tag : BitVec 60) (b : FullBits) : Bool :=
  b.allocated && tagMatch b.pageType b.tag tag

def matchLine (tag : BitVec 60) (line : Line) : Option (Fin 4) :=
  (List.finRange 4).find? (fun i => isMatch tag (line i))

def pteAddr (bucket : BitVec 9) (i : Fin 4) : BitVec 9 := bucket+BitVec.ofNat 9 i.val <<< 4

def nextPte (bucket : BitVec 9) (tag : BitVec 60) (line : Line)
    (pteReg : PageTableEntry) : PageTableEntry :=
  match matchLine tag line with
  | some i => { fromFullBits (line i) with pteAddr := pteAddr bucket i }
  | none => pteReg

def fetchTag (t : HashTable) (tag : BitVec 60) : PageTableEntry :=
  (List.finRange 4).foldl
    (fun pteReg l => nextPte (hashFunc tag) tag (t (hashFunc tag) l) pteReg) emptyPte

def fetch (t : HashTable) (req : AddressLookupRequest) : PageTableEntry :=
  { fetchTag t req.tag with seqId := req.seqId }

def Fetched (t : HashTable) (tag : BitVec 60) (pte : PageTableEntry) : Prop :=
  (pte = emptyPte ∧ ∀ l i, isMatch tag (t (hashFunc tag) l i) = false) ∨
    ∃ l i, isMatch tag (t (hashFunc tag) l i) = true ∧
      pte = { fromFullBits (t (hashFunc tag) l i) with pteAddr := pteAddr (hashFunc tag) i }

variable (tag : BitVec 60)

lemma match_line_none (line : Line) (h : matchLine tag line = none) (i : Fin 4) :
    isMatch tag (line i) = false := by
  have hi := List.find?_eq_none.mp h i (List.mem_finRange i)
  simpa using hi

lemma match_line_some (line : Line) (i : Fin 4) (h : matchLine tag line = some i) :
    isMatch tag (line i) = true := by
  have hi := List.find?_some h
  exact hi

lemma fold_lines (t : HashTable) (tag : BitVec 60) (ls : List (Fin 4)) (pte : PageTableEntry) :
    let out := ls.foldl (fun pteReg l => nextPte (hashFunc tag) tag (t (hashFunc tag) l) pteReg) pte
    (out = pte ∧ ∀ l ∈ ls, ∀ i, isMatch tag (t (hashFunc tag) l i) = false) ∨
      ∃ l i, isMatch tag (t (hashFunc tag) l i) = true ∧
        out = { fromFullBits (t (hashFunc tag) l i) with pteAddr := pteAddr (hashFunc tag) i } := by
  induction ls generalizing pte with
  | nil => simp
  | cons l ls ih =>
    rw [List.foldl_cons]
    rcases ih (nextPte (hashFunc tag) tag (t (hashFunc tag) l) pte) with ⟨heq,hrest⟩ | hmatch
    · cases hl : matchLine tag (t (hashFunc tag) l) with
      | none =>
        left
        refine ⟨by rw [heq,nextPte,hl],?_⟩
        intro k hk i
        rcases List.mem_cons.mp hk with rfl | hk
        · exact match_line_none tag _ hl i
        · exact hrest k hk i
      | some i =>
        right
        exact ⟨l,i,match_line_some tag _ i hl,by rw [heq,nextPte,hl]⟩
    · exact Or.inr hmatch

variable (t : HashTable)

lemma fetch_tag_fetched (tag : BitVec 60) : Fetched t tag (fetchTag t tag) := by
  rcases fold_lines t tag (List.finRange 4) emptyPte with ⟨heq,hrest⟩ | hmatch
  · exact Or.inl ⟨heq,fun l i => hrest l (List.mem_finRange l) i⟩
  · exact Or.inr hmatch

lemma hash_value : (hashFunc tag).toNat = tag.toNat/2^2%2^9 := by
  have ht := tag.isLt
  have ho : pageOffset 0 = 22 := by decide
  rw [hashFunc,BitVec.toNat_setWidth,BitVec.toNat_ushiftRight,tag2fullTag,BitVec.toNat_append,
    ho,Nat.shiftRight_eq_div_pow,← Nat.shiftLeft_add_eq_or_of_lt (by decide),Nat.shiftLeft_eq]
  simp only [BitVec.toNat_ofNat]
  omega

lemma hash_page (s t : BitVec 60) (h : s >>> 2 = t >>> 2) : hashFunc s = hashFunc t := by
  apply BitVec.eq_of_toNat_eq
  have hn := congrArg BitVec.toNat h
  simp only [BitVec.toNat_ushiftRight,Nat.shiftRight_eq_div_pow] at hn
  rw [hash_value,hash_value,hn]

lemma fetch_tag_page (r s : BitVec 60) (h : r >>> 2 = s >>> 2) : fetchTag t r = fetchTag t s := by
  have hmatch : isMatch r = isMatch s := by
    funext b
    rw [isMatch,isMatch,tag_match_page b.pageType b.tag r s h]
  simp only [fetchTag,nextPte,matchLine,hmatch,hash_page r s h]

end Clio.FetchUnit
