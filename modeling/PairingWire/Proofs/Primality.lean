import Mathlib.NumberTheory.LucasPrimality
import PairingWire.Engine
import PairingWire.Proofs.Residue.Field

/-!
The moduli of the two engines are prime. Lucas' test asks for a base whose powers separate `n - 1`
from its proper divisors; a list of certificates names such bases, where the prime factors of each
`n - 1` are small or the numbers of earlier certificates.
-/

namespace PairingWire

def powerMod (n a k : Nat) : Nat := doubleAndAdd (fun x y => x * y % n) 1 a (bitLength k) k

theorem cast_powerMod (n a k : Nat) : (powerMod n a k : ZMod n) = (a : ZMod n) ^ k := by
  have respects : ∀ x y : Nat, ((x * y % n : Nat) : ZMod n) = (x : ZMod n) * y := by
    intro x y
    rw [ZMod.natCast_mod, Nat.cast_mul]
  rw [powerMod, map_doubleAndAdd (fun x : Nat => (x : ZMod n)) respects, Nat.cast_one]
  exact power_eq_pow (a : ZMod n) k

theorem cast_pow_eq_one_iff {n : Nat} (large : 1 < n) (a k : Nat) :
    (a : ZMod n) ^ k = 1 ↔ powerMod n a k % n = 1 := by
  rw [← cast_powerMod, ← Nat.cast_one, ZMod.natCast_eq_natCast_iff', Nat.mod_eq_of_lt large]

def isSmallPrime (q : Nat) : Bool :=
  1 < q && q < 65536 && (List.range 256).all fun d => d < 2 || q < d * d || q % d != 0

theorem prime_of_isSmallPrime {q : Nat} (small : isSmallPrime q = true) : q.Prime := by
  simp only [isSmallPrime, Bool.and_eq_true, decide_eq_true_eq, List.all_eq_true, List.mem_range,
    Bool.or_eq_true, bne_iff_ne] at small
  obtain ⟨⟨lower, upper⟩, trials⟩ := small
  refine Nat.prime_def_le_sqrt.2 ⟨lower, fun d two_le le_root divides => ?_⟩
  have square : d * d ≤ q := Nat.le_sqrt.1 le_root
  -- The number has sixteen binary digits, so a divisor up to its root has eight.
  have bound : d < 256 := by
    by_contra large
    have more : 256 * 256 ≤ d * d := Nat.mul_le_mul (not_lt.1 large) (not_lt.1 large)
    omega
  rcases trials d bound with (less | less) | remainder
  · omega
  · omega
  · exact remainder (Nat.mod_eq_zero_of_dvd divides)

structure LucasCertificate where
  number : Nat
  base : Nat
  factors : List Nat

namespace LucasCertificate

/-- The power with exponent `number - 1` is 1, and dividing the exponent by a factor changes that. -/
def test (c : LucasCertificate) : Bool :=
  1 < c.number && c.factors.prod ^ 32 % (c.number - 1) == 0 &&
    powerMod c.number c.base (c.number - 1) % c.number == 1 &&
    c.factors.all fun q => powerMod c.number c.base ((c.number - 1) / q) % c.number != 1

theorem prime_of_test {c : LucasCertificate} (passes : c.test = true)
    (primes : ∀ q ∈ c.factors, q.Prime) : c.number.Prime := by
  simp only [test, Bool.and_eq_true, decide_eq_true_eq, beq_iff_eq, List.all_eq_true,
    bne_iff_ne] at passes
  obtain ⟨⟨⟨large, complete⟩, full⟩, proper⟩ := passes
  refine lucas_primality c.number (c.base : ZMod c.number)
    ((cast_pow_eq_one_iff large _ _).2 full) ?_
  intro q prime divides
  have divides_power : q ∣ c.factors.prod ^ 32 :=
    divides.trans (Nat.dvd_of_mod_eq_zero complete)
  obtain ⟨factor, listed, divides_factor⟩ :=
    (Nat.Prime.prime prime).dvd_prod_iff.1 (prime.dvd_of_dvd_pow divides_power)
  have same : q = factor := (Nat.prime_dvd_prime_iff_eq prime (primes factor listed)).1 divides_factor
  rw [same, ne_eq, cast_pow_eq_one_iff large]
  exact proper factor listed

/-- All certificates pass, each with factors that are small or the numbers of certificates before. -/
def allPass : List Nat → List LucasCertificate → Bool
  | _, [] => true
  | known, c :: cs =>
    c.factors.all (fun q => isSmallPrime q || known.contains q) && c.test &&
      allPass (c.number :: known) cs

theorem prime_of_allPass {known : List Nat} {cs : List LucasCertificate}
    (passes : allPass known cs = true) (primes : ∀ q ∈ known, q.Prime) :
    ∀ c ∈ cs, c.number.Prime := by
  induction cs generalizing known with
  | nil =>
      intro c member
      cases member
  | cons first rest ih =>
      simp only [allPass, Bool.and_eq_true, List.all_eq_true, Bool.or_eq_true,
        List.contains_iff_mem] at passes
      obtain ⟨⟨factors, tested⟩, later⟩ := passes
      -- The certificates before this one have shown its large factors prime.
      have prime : first.number.Prime := by
        refine prime_of_test tested fun q listed => ?_
        rcases factors q listed with small | earlier
        · exact prime_of_isSmallPrime small
        · exact primes q earlier
      intro c member
      rcases List.mem_cons.1 member with rfl | member
      · exact prime
      · refine ih later (fun q listed => ?_) c member
        rcases List.mem_cons.1 listed with rfl | listed
        · exact prime
        · exact primes q listed

end LucasCertificate

def moduliCertificates : List LucasCertificate :=
  [ ⟨93001, 14, [2, 3, 5, 31]⟩,
    ⟨110573, 3, [2, 7, 11, 359]⟩,
    ⟨125527, 5, [2, 3, 20921]⟩,
    ⟨237073, 15, [2, 3, 11, 449]⟩,
    ⟨327599, 19, [2, 19, 37, 233]⟩,
    ⟨421987, 2, [2, 3, 53, 1327]⟩,
    ⟨582767, 5, [2, 67, 4349]⟩,
    ⟨609743, 5, [2, 7, 97, 449]⟩,
    ⟨755057, 3, [2, 41, 1151]⟩,
    ⟨859267, 2, [2, 3, 47737]⟩,
    ⟨906349, 2, [2, 3, 47, 1607]⟩,
    ⟨1593227, 2, [2, 19, 41927]⟩,
    ⟨1686913, 10, [2, 3, 23, 191]⟩,
    ⟨1853641, 17, [2, 3, 5, 19, 271]⟩,
    ⟨2508409, 11, [2, 3, 7, 79]⟩,
    ⟨2529403, 2, [2, 3, 23, 18329]⟩,
    ⟨2653753, 5, [2, 3, 110573]⟩,
    ⟨4562087, 5, [2, 17, 109, 1231]⟩,
    ⟨51376543, 3, [2, 3, 7, 151, 8101]⟩,
    ⟨52437899, 2, [2, 43, 609743]⟩,
    ⟨63690073, 7, [2, 3, 2653753]⟩,
    ⟨173171039, 13, [2, 73, 89, 13327]⟩,
    ⟨254760293, 2, [2, 63690073]⟩,
    ⟨405928799, 22, [2, 11, 3691, 4999]⟩,
    ⟨475709467, 2, [2, 3, 47, 1686913]⟩,
    ⟨639533339, 2, [2, 229, 853, 1637]⟩,
    ⟨927093389, 3, [2, 13, 409, 43591]⟩,
    ⟨1263766531, 10, [2, 3, 5, 13, 911, 3557]⟩,
    ⟨11465965001, 3, [2, 5, 7, 327599]⟩,
    ⟨12048837557, 2, [2, 7, 661, 93001]⟩,
    ⟨13090036741, 10, [2, 3, 5, 11, 47, 421987]⟩,
    ⟨35385462869, 2, [2, 7, 1263766531]⟩,
    ⟨43670061551, 7, [2, 5, 17, 51376543]⟩,
    ⟨5156902474397, 2, [2, 107, 12048837557]⟩,
    ⟨9272813673901, 2, [2, 3, 5, 7, 7577, 582767]⟩,
    ⟨64881703735777, 5, [2, 3, 927093389]⟩,
    ⟨1670836401704629, 2, [2, 3, 5156902474397]⟩,
    ⟨1928745244171409, 3, [2, 13, 9272813673901]⟩,
    ⟨2480874801745591, 6, [2, 3, 5, 19, 41, 35385462869]⟩,
    ⟨65865678001877903, 5, [2, 83, 379, 1637, 639533339]⟩,
    ⟨7259797099061183477, 2, [2, 941, 1928745244171409]⟩,
    ⟨2584487767265781317813, 2, [2, 89, 7259797099061183477]⟩,
    ⟨3819663927398918131021, 6, [2, 3, 5, 19, 113, 755057, 13090036741]⟩,
    ⟨92691255082156974996979, 3, [2, 3, 31, 467, 16447, 64881703735777]⟩,
    ⟨13818364434197438864469338081, 3, [2, 5, 823, 1593227, 65865678001877903]⟩,
    ⟨1125266252156850182658904441386709967, 5, [2, 3373, 43670061551, 3819663927398918131021]⟩,
    ⟨13427688667394608761327070753331941386769, 17,
      [2, 3, 7, 11, 1853641, 4562087, 173171039, 2480874801745591]⟩,
    ⟨15778400344354997994418419698270088123916926905054652752758194827714659, 2,
      [2, 3, 53, 475709467, 92691255082156974996979, 1125266252156850182658904441386709967]⟩,
    ⟨Engine.bn254.groupOrder, 5,
      [2, 3, 13, 29, 983, 11003, 237073, 405928799, 1670836401704629,
        13818364434197438864469338081]⟩,
    ⟨Engine.bn254.fieldOrder, 3,
      [2, 3, 13, 29, 67, 229, 311, 983, 11003, 405928799, 11465965001,
        13427688667394608761327070753331941386769]⟩,
    ⟨Engine.bls12P381.groupOrder, 7,
      [2, 3, 11, 19, 10177, 125527, 859267, 906349, 2508409, 2529403, 52437899, 254760293]⟩,
    ⟨Engine.bls12P381.fieldOrder, 2,
      [2, 3, 11, 23, 47, 10177, 859267, 52437899, 2584487767265781317813,
        15778400344354997994418419698270088123916926905054652752758194827714659]⟩ ]

theorem moduliCertificates_pass : LucasCertificate.allPass [] moduliCertificates = true := by
  decide +kernel

theorem prime_of_certified {n : Nat} (listed : n ∈ moduliCertificates.map (·.number)) : n.Prime := by
  obtain ⟨c, member, rfl⟩ := List.mem_map.1 listed
  exact LucasCertificate.prime_of_allPass moduliCertificates_pass (by simp) c member

namespace Engine

theorem prime_fieldOrder (e : Engine) : e.fieldOrder.Prime := by
  cases e <;> exact prime_of_certified (by simp [moduliCertificates])

theorem prime_groupOrder (e : Engine) : e.groupOrder.Prime := by
  cases e <;> exact prime_of_certified (by simp [moduliCertificates])

instance (e : Engine) : BlumPrime e.fieldOrder where
  prime := e.prime_fieldOrder
  ne_two := by cases e <;> decide
  mod_four := by cases e <;> decide

instance (e : Engine) : OddPrime e.fieldOrder := BlumPrime.toOddPrime

instance (e : Engine) : OddPrime e.groupOrder where
  prime := e.prime_groupOrder
  ne_two := by cases e <;> decide

end Engine

end PairingWire
