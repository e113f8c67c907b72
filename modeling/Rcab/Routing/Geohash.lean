import Mathlib.Data.Rat.Floor
import Rcab.Db.Schema
import Rcab.Lib.Bisection

/-!
# Geohashes

`geohash7`, of which `route-similarity.service.ts` and `pricing.service.ts` have a copy each, and
the keys of their two caches.  The loop bisects the longitudes and the latitudes by turns, so that a
geohash is a cell of a grid (`geohash7_eq_iff`): 2 ^ 18 by 2 ^ 17 cells, the outermost of which take
what lies beyond.  Its bounds are halved exactly, by doubles as by rationals.
-/

namespace Rcab.Routing

open Bisection

/-! ## The loop -/

/-- `BASE32`. -/
def base32 : List Char := "0123456789bcdefghjkmnpqrstuvwxyz".toList

/-- The variables of the loop. -/
structure HashState where
  idx : ℕ := 0
  bit : ℕ := 0
  even : Bool := true
  hash : List Char := []
  latMin : ℚ := -90
  latMax : ℚ := 90
  lngMin : ℚ := -180
  lngMax : ℚ := 180

/-- The half the point is in, and its bit. -/
def HashState.halve (p : Point) (s : HashState) : HashState :=
  if s.even then
    let mid := (s.lngMin + s.lngMax) / 2
    if mid ≤ p.lng then { s with idx := s.idx <<< 1 ||| 1, lngMin := mid }
    else { s with idx := s.idx <<< 1, lngMax := mid }
  else
    let mid := (s.latMin + s.latMax) / 2
    if mid ≤ p.lat then { s with idx := s.idx <<< 1 ||| 1, latMin := mid }
    else { s with idx := s.idx <<< 1, latMax := mid }

/-- One turn of the loop. -/
def HashState.turn (p : Point) (s : HashState) : HashState :=
  let s := s.halve p
  let s := { s with even := !s.even, bit := s.bit + 1 }
  if s.bit = 5 then { s with hash := s.hash ++ base32[s.idx]?.toList, bit := 0, idx := 0 } else s

/-- `while (hash.length < 7)`, for so many turns at most. -/
def hashLoop (p : Point) : ℕ → HashState → HashState
  | 0, s => s
  | turns + 1, s => if s.hash.length < 7 then hashLoop p turns (s.turn p) else s

def geohash7 (p : Point) : String := String.ofList (hashLoop p 35 {}).hash

/-- `pricing:dist:` and `osrm:poly:`. -/
inductive CacheKind where
  | metrics | polyline
deriving DecidableEq, Repr

def CacheKind.prefix_ : CacheKind → String
  | .metrics => "pricing:dist:"
  | .polyline => "osrm:poly:"

def cacheKey (kind : CacheKind) (origin dest : Point) : String :=
  kind.prefix_ ++ geohash7 origin ++ ":" ++ geohash7 dest

/-! ## Five bits a character -/

theorem length_base32 : base32.length = 2 ^ 5 := by decide

/-- Every number of five bits has a character. -/
theorem exists_base32 {n : ℕ} (h : n < 2 ^ 5) : ∃ c ∈ base32, base32[n]? = some c :=
  ⟨_, List.getElem_mem (length_base32 ▸ h), List.getElem?_eq_getElem (length_base32 ▸ h)⟩

theorem base32_inj {m n : ℕ} (hm : m < 2 ^ 5) : base32[m]? = base32[n]? ↔ m = n :=
  List.getElem?_inj (length_base32 ▸ hm) (by decide)

/-- What a turn does with a bit. -/
def pushBit (c : ℕ × ℕ × List Char) (b : Bool) : ℕ × ℕ × List Char :=
  let idx := 2 * c.1 + b.toNat
  if c.2.1 + 1 = 5 then (0, 0, c.2.2 ++ base32[idx]?.toList) else (idx, c.2.1 + 1, c.2.2)

/-- The bits before the next full five, and a character for every five before them. -/
theorem foldl_pushBit (bs : List Bool) :
    ∃ idx hash, bs.foldl pushBit (0, 0, []) = (idx, bs.length % 5, hash) ∧
      idx < 2 ^ (bs.length % 5) ∧ hash.length = bs.length / 5 := by
  induction bs using List.reverseRecOn with
  | nil => exact ⟨0, [], rfl, by simp, rfl⟩
  | append_singleton bs b ih =>
    obtain ⟨idx, hash, hfold, hidx, hhash⟩ := ih
    have hb := b.toNat_le
    rw [List.foldl_append, hfold, List.length_append, List.length_singleton]
    simp only [List.foldl_cons, List.foldl_nil, pushBit]
    split_ifs with hfive
    · rw [show bs.length % 5 = 4 by omega] at hidx
      obtain ⟨c, -, hc⟩ := exists_base32 (n := 2 * idx + b.toNat) (by omega)
      refine ⟨0, hash ++ [c], ?_, ?_, ?_⟩
      · rw [hc, show (bs.length + 1) % 5 = 0 by omega]
        rfl
      · positivity
      · rw [List.length_append, hhash, List.length_singleton]
        omega
    · have hmod : (bs.length + 1) % 5 = bs.length % 5 + 1 := by omega
      refine ⟨2 * idx + b.toNat, hash, by rw [hmod], ?_, by omega⟩
      rw [hmod, pow_succ]
      omega

/-- The characters of full fives of bits. -/
def encode : List Bool → List Char
  | b₀ :: b₁ :: b₂ :: b₃ :: b₄ :: bs =>
      base32[number [b₀, b₁, b₂, b₃, b₄]]?.toList ++ encode bs
  | _ => []

theorem foldl_pushBit_encode {n : ℕ} : ∀ {bs : List Bool}, bs.length = 5 * n →
    ∀ hash, bs.foldl pushBit (0, 0, hash) = (0, 0, hash ++ encode bs) := by
  induction n with
  | zero =>
    intro bs h hash
    obtain rfl := List.length_eq_zero_iff.mp h
    simp [encode]
  | succ n ih =>
    intro bs h hash
    match bs, h with
    | b₀ :: b₁ :: b₂ :: b₃ :: b₄ :: bs, h =>
      have hlen : bs.length = 5 * n := by
        simp only [List.length_cons] at h
        omega
      rw [encode, ← List.append_assoc, ← ih hlen]
      simp [pushBit, number]

/-- Equal characters come from equal bits. -/
theorem encode_inj {n : ℕ} : ∀ {bs bs' : List Bool}, bs.length = 5 * n → bs'.length = 5 * n →
    (encode bs = encode bs' ↔ bs = bs') := by
  induction n with
  | zero =>
    intro bs bs' h h'
    obtain rfl := List.length_eq_zero_iff.mp h
    obtain rfl := List.length_eq_zero_iff.mp h'
    simp
  | succ n ih =>
    intro bs bs' h h'
    match bs, h, bs', h' with
    | b₀ :: b₁ :: b₂ :: b₃ :: b₄ :: bs, h, c₀ :: c₁ :: c₂ :: c₃ :: c₄ :: cs, h' =>
      have hlen : bs.length = 5 * n := by
        simp only [List.length_cons] at h
        omega
      have hlen' : cs.length = 5 * n := by
        simp only [List.length_cons] at h'
        omega
      have hb : number [b₀, b₁, b₂, b₃, b₄] < 2 ^ 5 := number_lt _
      obtain ⟨c, -, hcb⟩ := exists_base32 hb
      obtain ⟨c', -, hcc⟩ := exists_base32 (number_lt [c₀, c₁, c₂, c₃, c₄])
      have hchar : c = c' ↔ [b₀, b₁, b₂, b₃, b₄] = [c₀, c₁, c₂, c₃, c₄] := by
        rw [← number_inj (by simp), ← base32_inj hb, hcb, hcc, Option.some.injEq]
      rw [encode, encode, hcb, hcc]
      simp only [Option.toList_some, List.cons_append, List.nil_append, List.cons.injEq,
        ih hlen hlen', hchar]
      tauto

theorem mem_encode {n : ℕ} : ∀ {bs : List Bool}, bs.length = 5 * n →
    (encode bs).length = n ∧ ∀ c ∈ encode bs, c ∈ base32 := by
  induction n with
  | zero =>
    intro bs h
    obtain rfl := List.length_eq_zero_iff.mp h
    simp [encode]
  | succ n ih =>
    intro bs h
    match bs, h with
    | b₀ :: b₁ :: b₂ :: b₃ :: b₄ :: bs, h =>
      have hlen : bs.length = 5 * n := by
        simp only [List.length_cons] at h
        omega
      obtain ⟨hn, hmem⟩ := ih hlen
      obtain ⟨c, hc, heq⟩ := exists_base32 (number_lt [b₀, b₁, b₂, b₃, b₄])
      rw [encode, heq]
      refine ⟨by simp [hn], fun c' hc' ↦ ?_⟩
      rcases List.mem_cons.mp hc' with rfl | hc'
      · exact hc
      · exact hmem c' hc'

/-! ## The bits of a point -/

namespace HashState

variable (p : Point) (s : HashState)

/-- What a turn adds to the bits. -/
def nextBit : Bool :=
  if s.even then (s.lngMin + s.lngMax) / 2 ≤ p.lng else (s.latMin + s.latMax) / 2 ≤ p.lat

/-- The bits of the next turns. -/
def bitsAhead (turns : ℕ) : List Bool :=
  if s.even then
    merge (digits s.lngMin s.lngMax p.lng ((turns + 1) / 2))
      (digits s.latMin s.latMax p.lat (turns / 2))
  else
    merge (digits s.latMin s.latMax p.lat ((turns + 1) / 2))
      (digits s.lngMin s.lngMax p.lng (turns / 2))

def code : ℕ × ℕ × List Char := (s.idx, s.bit, s.hash)

theorem code_hash : s.code.2.2 = s.hash := rfl

theorem length_bitsAhead (turns : ℕ) : (s.bitsAhead p turns).length = turns := by
  unfold bitsAhead
  split_ifs <;> (rw [length_merge, length_digits, length_digits]; omega)

theorem halve_idx : (s.halve p).idx = 2 * s.idx + (s.nextBit p).toNat := by
  have hshift (n : ℕ) : n <<< 1 = 2 * n := by rw [Nat.shiftLeft_eq, pow_one, mul_comm]
  have hor (n : ℕ) : 2 * n ||| 1 = 2 * n + 1 := by
    rw [← hshift, ← Nat.shiftLeft_add_eq_or_of_lt (by norm_num)]
  obtain ⟨idx, bit, even, hash, latMin, latMax, lngMin, lngMax⟩ := s
  cases even <;> simp only [halve, nextBit, Bool.false_eq_true, if_false, if_true] <;>
    split_ifs with hmid <;> simp [hmid, hshift, hor]

theorem halve_rest : (s.halve p).bit = s.bit ∧ (s.halve p).hash = s.hash ∧
    (s.halve p).even = s.even := by
  unfold halve
  dsimp only
  split_ifs <;> exact ⟨rfl, rfl, rfl⟩

theorem code_turn : (s.turn p).code = pushBit s.code (s.nextBit p) := by
  obtain ⟨hbit, hhash, -⟩ := s.halve_rest p
  simp only [turn, pushBit, code, hbit, hhash, s.halve_idx p]
  by_cases hfive : s.bit + 1 = 5 <;> simp [hfive]

/-- A turn moves on to the other axis. -/
theorem bitsAhead_turn (turns : ℕ) :
    (s.turn p).bitsAhead p turns = { s.halve p with even := !s.even }.bitsAhead p turns := by
  obtain ⟨-, -, heven⟩ := s.halve_rest p
  simp only [turn, heven]
  split_ifs <;> rfl

/-- The first of the bits ahead is the one of the next turn. -/
theorem bitsAhead_succ (turns : ℕ) :
    s.bitsAhead p (turns + 1) = s.nextBit p :: (s.turn p).bitsAhead p turns := by
  have hhalf : (turns + 1 + 1) / 2 = turns / 2 + 1 := by omega
  rw [bitsAhead_turn]
  obtain ⟨idx, bit, even, hash, latMin, latMax, lngMin, lngMax⟩ := s
  cases even <;> simp only [bitsAhead, halve, nextBit, hhalf, digits_succ, Bool.false_eq_true, if_false,
    if_true, Bool.not_true, Bool.not_false] <;> split_ifs with hmid <;> simp [hmid, merge_cons]

/-- The turns make characters of the bits ahead. -/
theorem code_iterate (turns : ℕ) :
    ((turn p)^[turns] s).code = (s.bitsAhead p turns).foldl pushBit s.code := by
  induction turns generalizing s with
  | zero =>
    have hnil : s.bitsAhead p 0 = [] := List.length_eq_zero_iff.mp (s.length_bitsAhead p 0)
    rw [hnil]
    rfl
  | succ turns ih =>
    rw [Function.iterate_succ_apply, ih, bitsAhead_succ, List.foldl_cons, code_turn]

end HashState

/-! ## What a geohash tells -/

/-- 18 bits of the longitude, and 17 of the latitude between them. -/
def bits (p : Point) : List Bool := merge (digits (-180) 180 p.lng 18) (digits (-90) 90 p.lat 17)

theorem length_bits (p : Point) : (bits p).length = 5 * 7 := by
  rw [bits, length_merge, length_digits, length_digits]

theorem hashLoop_add {p : Point} {s : HashState} {n : ℕ} (more : ℕ)
    (h : ∀ j < n, ((HashState.turn p)^[j] s).hash.length < 7) :
    hashLoop p (n + more) s = hashLoop p more ((HashState.turn p)^[n] s) := by
  induction n generalizing s with
  | zero => rw [Nat.zero_add, Function.iterate_zero_apply]
  | succ n ih =>
    have hs : s.hash.length < 7 := h 0 n.succ_pos
    rw [Nat.succ_add, hashLoop, if_pos hs, Function.iterate_succ_apply]
    exact ih fun j hj ↦ h (j + 1) (Nat.succ_lt_succ hj)

/-- The loop stops after 35 turns, with seven characters. -/
theorem hashLoop_eq (p : Point) (more : ℕ) :
    (hashLoop p (35 + more) {}).hash = encode (bits p) := by
  have hcode (turns : ℕ) : ((HashState.turn p)^[turns] {}).code =
      (({} : HashState).bitsAhead p turns).foldl pushBit (0, 0, []) := HashState.code_iterate ..
  have hlen (turns : ℕ) : ((HashState.turn p)^[turns] {}).hash.length = turns / 5 := by
    obtain ⟨idx, hash, hfold, -, hhash⟩ := foldl_pushBit (({} : HashState).bitsAhead p turns)
    rw [← hcode, HashState.length_bitsAhead] at hfold
    rw [HashState.length_bitsAhead] at hhash
    rw [← hhash, ← HashState.code_hash, hfold]
  rw [hashLoop_add more fun j hj ↦ by rw [hlen]; omega]
  have hstop : ¬ ((HashState.turn p)^[35] {}).hash.length < 7 := by rw [hlen]; decide
  have hbits : ({} : HashState).bitsAhead p 35 = bits p := rfl
  have hdone := foldl_pushBit_encode (length_bits p) []
  rw [← hbits, ← hcode] at hdone
  have hhash : ((HashState.turn p)^[35] {}).hash = encode (bits p) := by
    rw [← HashState.code_hash, hdone, List.nil_append, hbits]
  cases more with
  | zero => exact hhash
  | succ more => rw [hashLoop, if_neg hstop, hhash]

theorem toList_geohash7 (p : Point) : (geohash7 p).toList = encode (bits p) := by
  rw [geohash7, String.toList_ofList]
  exact hashLoop_eq p 0

/-- Seven characters of the alphabet. -/
theorem geohash7_chars (p : Point) :
    (geohash7 p).length = 7 ∧ ∀ c ∈ (geohash7 p).toList, c ∈ base32 := by
  rw [← String.length_toList, toList_geohash7]
  exact mem_encode (length_bits p)

/-- The cell of the grid. -/
structure SameCell (p q : Point) : Prop where
  lat : cell (-90) 90 p.lat 17 = cell (-90) 90 q.lat 17
  lng : cell (-180) 180 p.lng 18 = cell (-180) 180 q.lng 18

/-- `IsLatitude`, `IsLongitude`. -/
structure IsLatLng (p : Point) : Prop where
  lat : -90 ≤ p.lat ∧ p.lat ≤ 90
  lng : -180 ≤ p.lng ∧ p.lng ≤ 180

/-- A geohash is a cell. -/
theorem geohash7_eq_iff {p q : Point} : geohash7 p = geohash7 q ↔ SameCell p q := by
  rw [← String.toList_inj, toList_geohash7, toList_geohash7,
    encode_inj (length_bits p) (length_bits q), bits, bits,
    merge_inj (by simp) (by simp), digits_eq_iff (by norm_num), digits_eq_iff (by norm_num)]
  exact ⟨fun ⟨hlng, hlat⟩ ↦ ⟨hlat, hlng⟩, fun ⟨hlat, hlng⟩ ↦ ⟨hlng, hlat⟩⟩

/-- The points of a cell are near each other. -/
theorem SameCell.near {p q : Point} (h : SameCell p q) (hp : IsLatLng p) (hq : IsLatLng q) :
    |p.lat - q.lat| ≤ 180 / 2 ^ 17 ∧ |p.lng - q.lng| ≤ 360 / 2 ^ 18 := by
  have hlat := abs_sub_le hp.lat hq.lat (by norm_num) h.lat
  have hlng := abs_sub_le hp.lng hq.lng (by norm_num) h.lng
  norm_num at hlat hlng ⊢
  exact ⟨hlat, hlng⟩

/-- A geohash names a cell, whatever the coordinates: two points have the same one just when the same
of 2 ^ 17 equal bands takes their latitudes and the same of 2 ^ 18 their longitudes, which are then
as near as a cell is wide. -/
theorem geohash7_cells (p q : Point) :
    ((geohash7 p).length = 7 ∧ ∀ c ∈ (geohash7 p).toList, c ∈ base32) ∧
    (geohash7 p = geohash7 q ↔ SameCell p q) ∧
    (IsLatLng p → IsLatLng q → geohash7 p = geohash7 q →
      |p.lat - q.lat| ≤ 180 / 2 ^ 17 ∧ |p.lng - q.lng| ≤ 360 / 2 ^ 18) :=
  ⟨geohash7_chars p, geohash7_eq_iff, fun hp hq h ↦ (geohash7_eq_iff.mp h).near hp hq⟩

example : geohash7 ⟨5764911 / 100000, 1040744 / 100000⟩ = "u4pruyd" := by decide +kernel

/-- The keys of two caches differ, and those of one tell the cells of both ends. -/
theorem cacheKey_eq_iff {kind kind' : CacheKind} {o d o' d' : Point} :
    cacheKey kind o d = cacheKey kind' o' d' ↔ kind = kind' ∧ SameCell o o' ∧ SameCell d d' := by
  rw [← geohash7_eq_iff, ← geohash7_eq_iff]
  constructor
  · intro h
    have hlist := congrArg String.toList h
    simp only [cacheKey, String.toList_append] at hlist
    have hkind : kind = kind' := by
      cases kind <;> cases kind' <;> first | rfl | simp [CacheKind.prefix_] at hlist
    subst hkind
    have hlen (p q : Point) : (geohash7 p).toList.length = (geohash7 q).toList.length := by
      rw [String.length_toList, String.length_toList, (geohash7_chars p).1, (geohash7_chars q).1]
    rw [List.append_assoc, List.append_assoc, List.append_assoc, List.append_assoc,
      List.append_right_inj] at hlist
    obtain ⟨ho, hrest⟩ := List.append_inj hlist (hlen o o')
    rw [List.append_right_inj] at hrest
    exact ⟨rfl, String.toList_inj.mp ho, String.toList_inj.mp hrest⟩
  · rintro ⟨rfl, ho, hd⟩
    rw [cacheKey, cacheKey, ho, hd]

end Rcab.Routing
