import Delorean.Cetf.VoteExtension
import Delorean.Chain.Interpreter
import Delorean.Lib.Bls

/-!
# Aggregating the CETF signatures

The proposer of Tendermint height `H + 1` reads the vote extensions of the last commit, at `H`,
and aggregates the CETF signatures in them into one `CetfTag(H + 1, σ)` message
(`App::prepare_proposal`). Executed, the message stores `σ` under the tag scheduled at `H + 1`,
and `delorean-cli` decrypts with it what it encrypted under `get_agg_pubkey`, the aggregate of the
BLS keys registered with the CETF actor.

With BLS as the bilinear model of `Bls.Scheme`, seen through byte encodings of its signatures
and keys (`BlsApi.ofScheme`), the aggregate verifies the tag under the sum of the keys of the
signatures aggregated, one key per signature. That is the registered aggregate only when the
signatures come from exactly the registered validators, one each.
-/

namespace Delorean.Cetf

open Delorean.Chain

/-- Panics of `unwrap` on a failed `Result`. -/
def unwrapResult {α : Type} : Option α → Except String α
  | some a => .ok a
  | none => .error "called `Result::unwrap()` on an `Err` value"

/-- `SignatureKind::Cetf` or not. -/
def SignatureKind.isCetf : SignatureKind → Bool
  | .Cetf _ => true
  | .BlockHeight _ => false

/-- The signatures a vote extension carries: none for an empty extension. -/
def extensionSigs (fromSlice : List UInt8 → Option SignedTags) (vote_extension : List UInt8) :
    Except String SignedTags :=
  if vote_extension.isEmpty then .ok [] else unwrapResult (fromSlice vote_extension)

/-- The signatures of an extension that decodes: none for an empty one. -/
def decodedSigs (fromSlice : List UInt8 → Option SignedTags) (vote_extension : List UInt8) :
    SignedTags :=
  if vote_extension.isEmpty then [] else (fromSlice vote_extension).getD []

section Prepare

variable {Sig Pk : Type} (bls : BlsApi Sig Pk) (fromSlice : List UInt8 → Option SignedTags)

/-- `if !sigs.is_empty() { Some(aggregate(&sigs).unwrap()) } else { None }`. -/
def aggregateIfAny (sigs : List Sig) : Except String (Option Sig) :=
  if !sigs.isEmpty then some <$> unwrapResult (bls.aggregate sigs) else .ok none

/-- The CETF part of `App::prepare_proposal` at a Tendermint height: the signatures of the
extensions of the local last commit, the CETF ones and the height ones each deserialized and
aggregated, and a `CetfTag` message with the aggregate CETF signature, if there is one. The height
aggregate is computed and not proposed. -/
def prepareCetfTx (height : Nat) (local_last_commit : Option (List (List UInt8))) :
    Except String (List CetfMessage) :=
  match local_last_commit with
  | none => .ok []
  | some vote_extensions => do
    let votes ← vote_extensions.mapM (extensionSigs fromSlice)
    let votes := votes.flatten
    let cetf_sigs ← unwrapResult ((votes.filter SignatureKind.isCetf).mapM
      fun s => bls.signatureFromBytes s.asSlice)
    let height_sigs ← unwrapResult ((votes.filter fun s => !s.isCetf).mapM
      fun s => bls.signatureFromBytes s.asSlice)
    let agg_cetf_sig ← aggregateIfAny bls cetf_sigs
    let _agg_height_sig ← aggregateIfAny bls height_sigs
    pure (match agg_cetf_sig with
      | some agg_cetf => [.CetfTag height (bls.signatureAsBytes agg_cetf)]
      | none => [])

/-- `get_agg_pubkey` of `delorean-cli`: the aggregate of every BLS key registered with the CETF
actor. -/
def getAggPubkey {Address : Type} (st : State Address) : Except String Pk := do
  let pub_keys ← st.validators.entries.mapM fun e =>
    match bls.publicKeyFromBytes e.2 with
    | some pk => .ok pk
    | none => .error "failed to parse public key from bytes"
  match bls.aggregateKeys pub_keys with
  | some pk => .ok pk
  | none => .error "failed to aggregate public keys"

end Prepare

/-- Byte encodings of a group's elements. -/
structure Codec (G Bytes : Type) where
  encode : G → Bytes
  decode : Bytes → Option G

/-- The `bls_signatures` operations of a bilinear model: signatures and keys go through their
encodings, verification is the model's, and aggregation adds, refusing no input. -/
def BlsApi.ofScheme {R G₁ G₂ Gₜ : Type} [CommRing R] [AddCommGroup G₁] [Module R G₁]
    [AddCommGroup G₂] [Module R G₂] [AddCommGroup Gₜ] [Module R Gₜ] [DecidableEq Gₜ]
    (S : Bls.Scheme R G₁ G₂ Gₜ (List UInt8)) (sigCodec : Codec G₁ BlsSignature)
    (pkCodec : Codec G₂ BlsPublicKey) : BlsApi G₁ G₂ where
  signatureFromBytes := sigCodec.decode
  signatureAsBytes := sigCodec.encode
  publicKeyFromBytes := pkCodec.decode
  verifyMessages sig m pk := decide (S.Verifies sig m pk)
  aggregate sigs := if sigs.isEmpty then none else some sigs.sum
  aggregateKeys pks := if pks.isEmpty then none else some pks.sum

/-! ### The aggregate and the keys it verifies under -/

/-- The CETF signatures of a last commit whose votes are paired with their signers' keys, each
with the key of the vote that carried it. -/
def cetfPairs (fromSlice : List UInt8 → Option SignedTags) {Pk : Type}
    (votes : List (Pk × List UInt8)) : List (SignatureKind × Pk) :=
  votes.flatMap fun v => ((decodedSigs fromSlice v.2).filter SignatureKind.isCetf).map (·, v.1)

/-- The key behind each CETF signature of the last commit: a vote's key counts once for every
CETF signature its extension carries. -/
def cetfSignerKeys (fromSlice : List UInt8 → Option SignedTags) {Pk : Type}
    (votes : List (Pk × List UInt8)) : List Pk :=
  (cetfPairs fromSlice votes).map Prod.snd

theorem cetfPairs_map_fst (fromSlice : List UInt8 → Option SignedTags) {Pk : Type}
    (votes : List (Pk × List UInt8)) :
    (cetfPairs fromSlice votes).map Prod.fst =
      ((votes.map Prod.snd).flatMap (decodedSigs fromSlice)).filter SignatureKind.isCetf := by
  induction votes with
  | nil => rfl
  | cons v votes ih =>
    simp only [cetfPairs, List.flatMap_cons, List.map_append, List.map_map, List.map_cons,
      List.filter_append] at ih ⊢
    rw [ih]
    simp [Function.comp_def]

theorem mem_cetfPairs {fromSlice : List UInt8 → Option SignedTags} {Pk : Type}
    {votes : List (Pk × List UInt8)} {p : SignatureKind × Pk} :
    p ∈ cetfPairs fromSlice votes ↔
      ∃ v ∈ votes, p.1 ∈ decodedSigs fromSlice v.2 ∧ p.1.isCetf = true ∧ p.2 = v.1 := by
  obtain ⟨s, pk⟩ := p
  simp only [cetfPairs, List.mem_flatMap, List.mem_map, List.mem_filter, Prod.mk.injEq]
  constructor
  · rintro ⟨v, hv, s', ⟨hs', hcetf⟩, rfl, rfl⟩
    exact ⟨v, hv, hs', hcetf, rfl⟩
  · rintro ⟨v, hv, hs, hcetf, rfl⟩
    exact ⟨v, hv, s, ⟨hs, hcetf⟩, rfl, rfl⟩

/-- Extensions that all decode give the signatures `decodedSigs` names. -/
theorem mapM_extensionSigs {fromSlice : List UInt8 → Option SignedTags} :
    ∀ {exts : List (List UInt8)} {votes : List SignedTags},
      exts.mapM (extensionSigs fromSlice) = .ok votes → votes.flatten = exts.flatMap (decodedSigs fromSlice)
  | [], votes, h => by
    simp only [List.mapM_nil, Except.pure_eq_ok, Except.ok.injEq] at h
    subst h
    rfl
  | ext :: exts, votes, h => by
    rw [List.mapM_cons, Except.bind_eq_ok] at h
    obtain ⟨sigs, hsigs, h⟩ := h
    rw [Except.bind_eq_ok] at h
    obtain ⟨rest, hrest, h⟩ := h
    simp only [Except.pure_eq_ok, Except.ok.injEq] at h
    subst h
    have hdecoded : sigs = decodedSigs fromSlice ext := by
      unfold extensionSigs at hsigs
      unfold decodedSigs
      split_ifs at hsigs ⊢ with hempty
      · exact (Except.ok.inj hsigs).symm
      · cases hd : fromSlice ext with
        | none => simp [hd, unwrapResult] at hsigs
        | some d => simp [hd, unwrapResult] at hsigs; simp [hsigs]
    rw [List.flatten_cons, List.flatMap_cons, hdecoded, mapM_extensionSigs hrest]

theorem aggregateIfAny_eq_ok_some {Sig Pk : Type} {bls : BlsApi Sig Pk} {sigs : List Sig}
    {agg : Sig} (h : aggregateIfAny bls sigs = .ok (some agg)) : bls.aggregate sigs = some agg := by
  unfold aggregateIfAny at h
  split_ifs at h
  · cases hsum : bls.aggregate sigs with
    | none => simp [hsum, unwrapResult] at h
    | some a =>
      simp only [hsum, unwrapResult, Except.map_ok, Except.ok.injEq, Option.some.injEq] at h
      rw [h]
  · cases h

/-- When `prepare_proposal` proposes a `CetfTag`, it is at the proposal's height and carries the
encoding of the aggregate of the deserialized CETF signatures of the last commit. -/
theorem prepareCetfTx_cetfTag {Sig Pk : Type} {bls : BlsApi Sig Pk}
    {fromSlice : List UInt8 → Option SignedTags} {height : Nat} {exts : List (List UInt8)}
    {msgs : List CetfMessage} (hprep : prepareCetfTx bls fromSlice height (some exts) = .ok msgs)
    {h : Nat} {sig : BlsSignature} (hmem : CetfMessage.CetfTag h sig ∈ msgs) :
    h = height ∧ ∃ cetf_sigs agg,
      ((exts.flatMap (decodedSigs fromSlice)).filter SignatureKind.isCetf).mapM
          (fun s => bls.signatureFromBytes s.asSlice) = some cetf_sigs ∧
        bls.aggregate cetf_sigs = some agg ∧ sig = bls.signatureAsBytes agg := by
  simp only [prepareCetfTx, Except.bind_eq_ok] at hprep
  obtain ⟨votes, hvotes, cetf_sigs, hcetf, height_sigs, -, agg?, hagg, -, -, hmsgs⟩ := hprep
  rw [mapM_extensionSigs hvotes] at hcetf
  have hcetf' : ((exts.flatMap (decodedSigs fromSlice)).filter SignatureKind.isCetf).mapM
      (fun s => bls.signatureFromBytes s.asSlice) = some cetf_sigs := by
    revert hcetf
    cases ((exts.flatMap (decodedSigs fromSlice)).filter SignatureKind.isCetf).mapM
      (fun s => bls.signatureFromBytes s.asSlice) <;> simp [unwrapResult]
  -- The message exists only if there was an aggregate.
  cases agg? with
  | none =>
    simp only [Except.pure_eq_ok, Except.ok.injEq] at hmsgs
    subst hmsgs
    exact absurd hmem List.not_mem_nil
  | some agg =>
    simp only [Except.pure_eq_ok, Except.ok.injEq] at hmsgs
    subst hmsgs
    simp only [List.mem_singleton, CetfMessage.CetfTag.injEq] at hmem
    obtain ⟨rfl, rfl⟩ := hmem
    exact ⟨rfl, cetf_sigs, agg, hcetf', aggregateIfAny_eq_ok_some hagg, rfl⟩

section Scheme

variable {R G₁ G₂ Gₜ : Type} [CommRing R] [AddCommGroup G₁] [Module R G₁] [AddCommGroup G₂]
  [Module R G₂] [AddCommGroup Gₜ] [Module R Gₜ] [DecidableEq Gₜ]
  (S : Bls.Scheme R G₁ G₂ Gₜ (List UInt8)) (sigCodec : Codec G₁ BlsSignature)

omit [DecidableEq Gₜ] in
/-- Signatures that each deserialize and verify `m` under their key: their deserializations add
up to a signature of `m` under the sum of the keys. The induction is on the pairs. -/
theorem verifies_sum_of_mapM (m : List UInt8) :
    ∀ {pairs : List (SignatureKind × G₂)} {sigs : List G₁},
      (∀ p ∈ pairs, ∃ sig, sigCodec.decode p.1.asSlice = some sig ∧ S.Verifies sig m p.2) →
      (pairs.map Prod.fst).mapM (fun s => sigCodec.decode s.asSlice) = some sigs →
      S.Verifies sigs.sum m (pairs.map Prod.snd).sum
  | [], sigs, _, hsigs => by
    simp only [List.map_nil, List.mapM_nil, Option.pure_def, Option.some.injEq] at hsigs
    subst hsigs
    exact S.verifies_zero m
  | (s, pk) :: rest, sigs, hall, hsigs => by
    obtain ⟨sig, hdec, hv⟩ := hall (s, pk) List.mem_cons_self
    rw [List.map_cons, List.mapM_cons] at hsigs
    simp only [hdec, Option.bind_eq_bind, Option.bind_some, Option.bind_eq_some_iff,
      Option.pure_def, Option.some.injEq] at hsigs
    obtain ⟨rest_sigs, hrest, rfl⟩ := hsigs
    have hrest_v := verifies_sum_of_mapM m (fun p hp => hall p (List.mem_cons_of_mem _ hp)) hrest
    simpa only [List.sum_cons, List.map_cons] using S.verifies_add hv hrest_v

/-- A traversal that fails on `none` succeeds with the values of the `some`s. -/
theorem mapM_eq_ok_filterMap {α β : Type} {g : α → Option β} {msg : String} :
    ∀ {l : List α} {r : List β},
      l.mapM (fun a => match g a with
        | some b => (.ok b : Except String β)
        | none => .error msg) = .ok r → r = l.filterMap g
  | [], r, h => by
    simp only [List.mapM_nil, Except.pure_eq_ok, Except.ok.injEq] at h
    exact h.symm
  | a :: l, r, h => by
    rw [List.mapM_cons, Except.bind_eq_ok] at h
    obtain ⟨b, hb, h⟩ := h
    rw [Except.bind_eq_ok] at h
    obtain ⟨rest, hrest, h⟩ := h
    simp only [Except.pure_eq_ok, Except.ok.injEq] at h
    subst h
    cases hg : g a with
    | none => simp [hg] at hb
    | some b' =>
      simp only [hg, Except.ok.injEq] at hb
      subst hb
      rw [List.filterMap_cons_some hg, mapM_eq_ok_filterMap hrest]

variable (pkCodec : Codec G₂ BlsPublicKey)

/-- `get_agg_pubkey` computes the sum of the registered keys. -/
theorem getAggPubkey_eq_ok {Address : Type} {st : State Address} {pk : G₂}
    (h : getAggPubkey (BlsApi.ofScheme S sigCodec pkCodec) st = .ok pk) :
    pk = (st.validators.entries.filterMap fun e => pkCodec.decode e.2).sum := by
  unfold getAggPubkey at h
  rw [Except.bind_eq_ok] at h
  obtain ⟨pub_keys, hkeys, h⟩ := h
  have hpub : pub_keys = st.validators.entries.filterMap fun e => pkCodec.decode e.2 :=
    mapM_eq_ok_filterMap hkeys
  simp only [BlsApi.ofScheme] at h
  -- `aggregate_keys` refuses no keys, so the keys were there.
  split_ifs at h with hempty
  cases h
  rw [hpub]

/-- The `CetfTag` that `prepare_proposal` proposes verifies the tag under the sum of the keys of
the CETF signatures it aggregated, one key per signature, provided each of those signatures
verifies the tag under its voter's key (which `verify_vote_extension` checks of the extensions
it accepts). It verifies under the key `get_agg_pubkey` computes when those keys are the
registered keys, each once. -/
theorem prepareCetfTx_aggregate_verifies
    (hcodec : ∀ sig, sigCodec.decode (sigCodec.encode sig) = some sig)
    {fromSlice : List UInt8 → Option SignedTags} {height : Nat} {tag : Tag}
    {votes : List (G₂ × List UInt8)}
    (hverified : ∀ v ∈ votes, ∀ s ∈ decodedSigs fromSlice v.2, s.isCetf = true →
      ∃ sig, sigCodec.decode s.asSlice = some sig ∧ S.Verifies sig tag.toList v.1)
    {msgs : List CetfMessage}
    (hprep : prepareCetfTx (BlsApi.ofScheme S sigCodec pkCodec) fromSlice height
      (some (votes.map Prod.snd)) = .ok msgs)
    {h : Nat} {sig : BlsSignature} (hmem : CetfMessage.CetfTag h sig ∈ msgs) :
    h = height ∧ ∃ agg, sigCodec.decode sig = some agg ∧
      S.Verifies agg tag.toList (cetfSignerKeys fromSlice votes).sum ∧
      ∀ {Address : Type} (st : State Address) (pk : G₂),
        getAggPubkey (BlsApi.ofScheme S sigCodec pkCodec) st = .ok pk →
        (cetfSignerKeys fromSlice votes).Perm
          (st.validators.entries.filterMap fun e => pkCodec.decode e.2) →
        S.Verifies agg tag.toList pk := by
  obtain ⟨hheight, cetf_sigs, agg, hmapM, hagg, rfl⟩ := prepareCetfTx_cetfTag hprep hmem
  -- The aggregate of the model is the sum.
  have hsum : agg = cetf_sigs.sum := by
    simp only [BlsApi.ofScheme] at hagg
    split_ifs at hagg
    · exact (Option.some.inj hagg).symm
  have hpairs : ((cetfPairs fromSlice votes).map Prod.fst).mapM
      (fun s => sigCodec.decode s.asSlice) = some cetf_sigs := by
    rw [cetfPairs_map_fst]
    exact hmapM
  have hall : ∀ p ∈ cetfPairs fromSlice votes,
      ∃ sig, sigCodec.decode p.1.asSlice = some sig ∧ S.Verifies sig tag.toList p.2 := by
    intro p hp
    obtain ⟨v, hv, hs, hcetf, hpk⟩ := mem_cetfPairs.mp hp
    rw [hpk]
    exact hverified v hv p.1 hs hcetf
  have hverifies : S.Verifies agg tag.toList (cetfSignerKeys fromSlice votes).sum := by
    rw [hsum]
    exact verifies_sum_of_mapM S sigCodec tag.toList hall hpairs
  refine ⟨hheight, agg, hcodec agg, hverifies, fun st pk hpk hperm => ?_⟩
  rw [getAggPubkey_eq_ok S sigCodec pkCodec hpk, ← hperm.sum_eq]
  exact hverifies

end Scheme


/-- A small instance of the bilinear model: scalars, both groups and the pairing's target are
`ZMod 7`, the hash is constant, the pairing multiplies, and an element is encoded in every byte of
a signature or a key. -/
def toyScheme : Bls.Scheme (ZMod 7) (ZMod 7) (ZMod 7) (ZMod 7) (List UInt8) :=
  ⟨1, fun _ => 1, LinearMap.mul (ZMod 7) (ZMod 7)⟩

/-- The signature encoding of `toyScheme`. -/
def toySigCodec : Codec (ZMod 7) BlsSignature :=
  ⟨fun x => Vector.replicate 96 (UInt8.ofNat x.val), fun v => some ((v.get 0).toNat : ZMod 7)⟩

/-- The public key encoding of `toyScheme`. -/
def toyPkCodec : Codec (ZMod 7) BlsPublicKey :=
  ⟨fun x => Vector.replicate 48 (UInt8.ofNat x.val), fun v => some ((v.get 0).toNat : ZMod 7)⟩

/-- Two validators with keys 1 and 2 each sign the tag in their extension; the proposal at 5
carries the aggregate. -/
theorem prepareCetfTx_aggregate_verifies_at_five :
    let fromSlice : List UInt8 → Option SignedTags :=
      fun ext => some [.Cetf (Vector.replicate 96 (ext.headD 0))]
    let votes : List (ZMod 7 × List UInt8) := [(1, [1]), (2, [2])]
    let tag : Tag := Vector.replicate 32 0
    5 = 5 ∧ ∃ agg, toySigCodec.decode (Vector.replicate 96 3) = some agg ∧
      toyScheme.Verifies agg tag.toList (cetfSignerKeys fromSlice votes).sum ∧
      ∀ {Address : Type} (st : State Address) (pk : ZMod 7),
        getAggPubkey (BlsApi.ofScheme toyScheme toySigCodec toyPkCodec) st = .ok pk →
        (cetfSignerKeys fromSlice votes).Perm
          (st.validators.entries.filterMap fun e => toyPkCodec.decode e.2) →
        toyScheme.Verifies agg tag.toList pk := by
  intro fromSlice votes tag
  exact prepareCetfTx_aggregate_verifies toyScheme toySigCodec toyPkCodec (by decide) (by decide)
    (show prepareCetfTx (BlsApi.ofScheme toyScheme toySigCodec toyPkCodec) fromSlice 5
      (some (votes.map Prod.snd)) = .ok [.CetfTag 5 (Vector.replicate 96 3)] by decide)
    (List.mem_singleton_self _)

/-- Two validators registered keys 1 and 2, and only the first extended its vote at height 4:
the proposal at 5 stores the first one's signature alone, which does not verify the tag under
the aggregate key `get_agg_pubkey` computes. -/
theorem prepareCetfTx_misses_silent_validator :
    let fromSlice : List UInt8 → Option SignedTags :=
      fun ext => some [.Cetf (Vector.replicate 96 (ext.headD 0))]
    let st : State Nat := ⟨∅, ((∅ : AList fun _ : Nat => BlsPublicKey).insert 1
      (Vector.replicate 48 1)).insert 2 (Vector.replicate 48 2), true, ∅⟩
    let bls := BlsApi.ofScheme toyScheme toySigCodec toyPkCodec
    prepareCetfTx bls fromSlice 5 (some [[1], []]) = .ok [.CetfTag 5 (Vector.replicate 96 1)] ∧
      toySigCodec.decode (Vector.replicate 96 1) = some 1 ∧
      getAggPubkey bls st = .ok 3 ∧
      ¬toyScheme.Verifies 1 (Vector.replicate 32 0 : Tag).toList 3 := by
  decide

end Delorean.Cetf
