import Mathlib.Algebra.Order.Floor.Div
import Rehearsal.Paging.Page

/-!
# Walks over pages

Following the tokens from an accepted one on never fails, ends, and meets every integer from its
offset on once (`walkWith_covers`).  The induction is on how many integers are left: a page of a
positive size always takes some of them, and its token is the offset of the next.
-/

namespace Rehearsal.Paging

/-! ## Sizes -/

theorem Sizes.toInt_pos {sizes : Sizes} {size : Int32} (h : sizes.effective? = some size) :
    0 < size.toInt := by
  have hpos := List.find?_some h
  exact Int32.lt_iff_toInt_lt.1 (of_decide_eq_true hpos)

theorem toInt_toNat_lt (maxResponse : Int32) : maxResponse.toInt.toNat < 0x80000000 := by
  have h := maxResponse.toInt_lt
  omega

/-! ## One page -/

theorem pageFrom_of_le {start size last : Nat} (h : start + size ≤ last) :
    pageFrom start size last = ⟨List.range' start size, Token.ofOffset (start + size)⟩ := by
  have hcount : min (start + size) (last + 1) - start = size := by omega
  rw [pageFrom, hcount, if_pos h]

theorem pageFrom_of_lt {start size last : Nat} (h : last < start + size) :
    pageFrom start size last = ⟨List.range' start (last + 1 - start), ""⟩ := by
  have hcount : min (start + size) (last + 1) = last + 1 := by omega
  rw [pageFrom, hcount, if_neg (by omega)]

section

variable {maxResponse size : Int32} {sizes : Nat → Sizes} {token : String} {start : Nat}

theorem paginate_request (h : 0 ≤ maxResponse) {sizes : Sizes}
    (hstart : Token.parse token maxResponse.toInt.toNat = .ok start)
    (hsize : sizes.effective? = some size) (hfits : size ≤ maxPageSize) :
    paginate (sizes.request maxResponse token) sizes.fallback =
      .ok (pageFrom start size.toInt.toNat maxResponse.toInt.toNat) :=
  paginate_of_fits h hstart hsize hfits

/-- A walk whose first page is not the last one goes on from the token of that page. -/
theorem walkWith_of_le (h : 0 ≤ maxResponse)
    (hstart : Token.parse token maxResponse.toInt.toNat = .ok start)
    (hsize : (sizes 0).effective? = some size) (hfits : size ≤ maxPageSize)
    (hle : start + size.toInt.toNat ≤ maxResponse.toInt.toNat) (limit : Nat) :
    walkWith maxResponse (limit + 1) sizes token =
      let later := walkWith maxResponse limit (fun i => sizes (i + 1))
        (Token.ofOffset (start + size.toInt.toNat))
      (⟨List.range' start size.toInt.toNat, Token.ofOffset (start + size.toInt.toNat)⟩ :: later.1,
        later.2) := by
  rw [walkWith, paginate_request h hstart hsize hfits, pageFrom_of_le hle]
  exact if_neg (Token.ofOffset_ne_empty _)

theorem walkWith_of_lt (h : 0 ≤ maxResponse)
    (hstart : Token.parse token maxResponse.toInt.toNat = .ok start)
    (hsize : (sizes 0).effective? = some size) (hfits : size ≤ maxPageSize)
    (hlt : maxResponse.toInt.toNat < start + size.toInt.toNat) (limit : Nat) :
    walkWith maxResponse (limit + 1) sizes token =
      ([⟨List.range' start (maxResponse.toInt.toNat + 1 - start), ""⟩], none) := by
  rw [walkWith, paginate_request h hstart hsize hfits, pageFrom_of_lt hlt]
  rfl

end

/-! ## All pages -/

/-- Pages that hold the integers from `first` to `last`, each once and in order, up to one without a
token. -/
structure Cover (first last : Nat) (pages : List Page) : Prop where
  responses : pages.flatMap Page.responses = List.range' first (last + 1 - first)
  ended : pages.getLast?.map Page.nextPageToken = some ""

theorem Cover.single {first last : Nat} :
    Cover first last [⟨List.range' first (last + 1 - first), ""⟩] where
  responses := List.append_nil _
  ended := rfl

theorem Cover.cons {first size last : Nat} {pages : List Page}
    (cover : Cover (first + size) last pages) (h : first + size ≤ last) (token : String) :
    Cover first last (⟨List.range' first size, token⟩ :: pages) where
  responses := by
    have hcount : size + (last + 1 - (first + size)) = last + 1 - first := by omega
    rw [List.flatMap_cons, cover.responses, List.range'_append_1, hcount]
  ended := by
    have hne : pages ≠ [] := by
      rintro rfl
      cases cover.ended
    rw [List.getLast?_cons_of_ne_nil hne, cover.ended]

theorem ceilDiv_pos {count size : Nat} (hsize : 0 < size) (hcount : 0 < count) :
    0 < count ⌈/⌉ size := by
  rw [Nat.ceilDiv_eq_add_pred_div]
  exact Nat.div_pos (by omega) hsize

theorem ceilDiv_succ {count size : Nat} (hsize : 0 < size) (h : size ≤ count) :
    (count - size) ⌈/⌉ size + 1 = count ⌈/⌉ size := by
  rw [Nat.ceilDiv_eq_add_pred_div, Nat.ceilDiv_eq_add_pred_div, ← Nat.add_div_right _ hsize]
  congr 1
  omega

theorem ceilDiv_eq_one {count size : Nat} (hcount : 0 < count) (h : count ≤ size) :
    count ⌈/⌉ size = 1 := by
  rw [Nat.ceilDiv_eq_add_pred_div]
  exact Nat.div_eq_of_lt_le (by omega) (by omega)

/-- The walk from an accepted token on. -/
theorem walkWith_covers {maxResponse : Int32} (h : 0 ≤ maxResponse) {sizes : Nat → Sizes}
    (fits : ∀ i, ∃ size, (sizes i).effective? = some size ∧ size ≤ maxPageSize) {token : String}
    {first : Nat} (accepted : Token.parse token maxResponse.toInt.toNat = .ok first) :
    ∃ pages, Cover first maxResponse.toInt.toNat pages ∧
      (∀ limit, walkWith maxResponse limit sizes token = (pages.take limit, none)) ∧
      ∀ size, (∀ i, (sizes i).effective? = some size) →
        pages.length = (maxResponse.toInt.toNat + 1 - first) ⌈/⌉ size.toInt.toNat := by
  induction hleft : maxResponse.toInt.toNat + 1 - first using Nat.strongRecOn
    generalizing sizes token first with
  | ind left ih =>
      obtain ⟨size, hsize, hfits⟩ := fits 0
      have hpos := Sizes.toInt_pos hsize
      have hfirst := Token.le_of_parse accepted
      have hlimit : maxResponse.toInt.toNat < Token.limit :=
        Nat.lt_trans (toInt_toNat_lt maxResponse) (by decide)
      have heq (same : Int32) (hsame : ∀ i, (sizes i).effective? = some same) : same = size :=
        Option.some.inj ((hsame 0).symm.trans hsize)
      by_cases hle : first + size.toInt.toNat ≤ maxResponse.toInt.toNat
      · have hnext := Token.parse_ofOffset hle hlimit
        obtain ⟨pages, cover, hwalk, hlength⟩ :=
          ih _ (by omega) (fun i => fits (i + 1)) hnext rfl
        refine ⟨_, cover.cons hle (Token.ofOffset (first + size.toInt.toNat)), fun limit => ?_,
          fun same hsame => ?_⟩
        · cases limit with
          | zero => rfl
          | succ limit =>
              rw [walkWith_of_le h accepted hsize hfits hle, hwalk]
              rfl
        · have hrest := hlength same fun i => hsame (i + 1)
          rw [heq same hsame] at hrest ⊢
          rw [List.length_cons, hrest,
            ← ceilDiv_succ (by omega) (show size.toInt.toNat ≤ left by omega)]
          congr 2
          omega
      · refine ⟨_, Cover.single, fun limit => ?_, fun same hsame => ?_⟩
        · cases limit with
          | zero => rfl
          | succ limit =>
              rw [walkWith_of_lt h accepted hsize hfits (by omega)]
              simp
        · rw [heq same hsame, ceilDiv_eq_one (by omega) (by omega)]
          rfl

end Rehearsal.Paging
