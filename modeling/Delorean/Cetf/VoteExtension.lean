import Delorean.Cetf.Actor

/-!
# Vote extensions

In the CometBFT vote of each height a validator extends its vote with its BLS signatures of the
tags due two heights above the committed one: the CETF tag scheduled there, if there is one, and
the height's own big-endian bytes (`App::extend_vote`). Every other validator checks an extension
in `App::verify_vote_extension`, which rebuilds the tag of each signature from the committed state
and hands the pairs to the interpreter's `verify_vote_extension`. That one checks the signatures
under the BLS key that the validator registered with the CETF actor.

BLS and the CBOR encoding of the extension are parameters of the model: `BlsApi` gives the
operations of the `bls_signatures` crate that the code calls, and `fromSlice` decodes an
extension. The node's view of the committed state is a `Node`. An error that the code returns
and a panic are both an `Except` error carrying the message.
-/

set_option linter.dupNamespace false

namespace Delorean.Cetf

/-- `TagKind`: what a validator signs. -/
inductive TagKind where
  /-- A tag scheduled by the CETF actor. -/
  | Cetf (tag : Tag)
  /-- A height, as big-endian bytes. -/
  | BlockHeight (height : Nat)
  deriving DecidableEq, Repr

/-- `SignatureKind`: a signature, tagged with what it signs. -/
inductive SignatureKind where
  | Cetf (sig : BlsSignature)
  | BlockHeight (sig : BlsSignature)
  deriving DecidableEq, Repr

/-- `Tags`. -/
abbrev Tags := List TagKind

/-- `SignedTags`: the content of a vote extension. -/
abbrev SignedTags := List SignatureKind

/-- `u64::to_be_bytes`. -/
def toBeBytes (height : Nat) : List UInt8 :=
  [7, 6, 5, 4, 3, 2, 1, 0].map fun i => UInt8.ofNat (height / 2 ^ (8 * i))

/-- `TagKind::to_vec`: the bytes that are signed. -/
def TagKind.toVec : TagKind → List UInt8
  | .Cetf tag => tag.toList
  | .BlockHeight height => toBeBytes height

/-- `SignatureKind::as_slice`: the signature's bytes. -/
def SignatureKind.asSlice : SignatureKind → BlsSignature
  | .Cetf sig => sig
  | .BlockHeight sig => sig

/-- The operations of the `bls_signatures` crate that the code calls, over its signature and
public key types. -/
structure BlsApi (Sig Pk : Type) where
  /-- `Signature::from_bytes`. -/
  signatureFromBytes : BlsSignature → Option Sig
  /-- `Signature::as_bytes`, as the 96 bytes that `BlsSignature` holds. -/
  signatureAsBytes : Sig → BlsSignature
  /-- `PublicKey::from_bytes`. -/
  publicKeyFromBytes : BlsPublicKey → Option Pk
  /-- `verify_messages(sig, &[msg], &[pk])`. -/
  verifyMessages : Sig → List UInt8 → Pk → Bool
  /-- `aggregate`: it fails on no signatures. -/
  aggregate : List Sig → Option Sig
  /-- `aggregate_keys`: it fails on no keys. -/
  aggregateKeys : List Pk → Option Pk

/-- `SignatureKind::to_bls_signature`. -/
def SignatureKind.toBlsSignature {Sig Pk : Type} (bls : BlsApi Sig Pk) (s : SignatureKind) :
    Except String Sig :=
  match bls.signatureFromBytes s.asSlice with
  | some sig => .ok sig
  | none => .error "failed to convert SignatureKind to bls signature"

/-- What a node reads to extend and verify votes: the committed height, the CETF actor's state at
the committed state root, its validator context and the current power table. -/
structure Node (Address Id Sig : Type) where
  /-- The committed FVM height; the Tendermint height of the vote is one above it. -/
  block_height : Nat
  /-- The CETF actor's state, if the actor exists. -/
  cetf : Option (State Address)
  /-- The validator context: how this node signs a tag. Only validators have one. -/
  validator_ctx : Option (List UInt8 → Sig)
  /-- The Tendermint account of each validator of the power table, as its FVM address. -/
  key_map : Id → Option Address

/-- `VerifyVoteExtension`. -/
inductive VerifyVoteExtension where
  | Accept
  | Reject
  deriving DecidableEq, Repr

variable {Address Id Sig Pk : Type} [DecidableEq Address] (bls : BlsApi Sig Pk)

/-- `get_tag_at_height` of the interpreter: the tag at a height in the CETF actor's state. -/
def Node.getTagAtHeight (node : Node Address Id Sig) (height : Nat) :
    Except String (Option Tag) :=
  match node.cetf with
  | none => .error "CETF actor id (49) not found in state"
  | some st => .ok (st.getTagAtHeight height)

/-- `TagKind::sign`: the validator context signs the tag's bytes. -/
def TagKind.sign (sign_tag : List UInt8 → Sig) : TagKind → SignatureKind
  | .Cetf tag => .Cetf (bls.signatureAsBytes (sign_tag tag.toList))
  | .BlockHeight height => .BlockHeight (bls.signatureAsBytes (sign_tag (toBeBytes height)))

/-- The interpreter's `extend_vote`: sign every tag if the actor is enabled and this node is a
validator. -/
def interpExtendVote (node : Node Address Id Sig) (tags : Tags) : Except String SignedTags :=
  match node.cetf with
  | none => .error "no CETF actor found!"
  | some st =>
    if !st.enabled then .ok []
    else
      match node.validator_ctx with
      | some sign_tag => .ok (tags.map (TagKind.sign bls sign_tag))
      | none => .ok []

/-- `App::extend_vote` at a Tendermint height: sign the tag due two heights above the committed
one and that height, and send the signatures encoded with `toVec`, or nothing. -/
def extendVote (toVec : SignedTags → List UInt8) (node : Node Address Id Sig) (height : Nat) :
    Except String (List UInt8) :=
  if height = 0 then .ok []
  else do
    let fvm_tags_height := node.block_height + 2
    let cetf_tag ← node.getTagAtHeight (node.block_height + 2)
    let tags := (match cetf_tag with
      | some tag => [TagKind.Cetf tag]
      | none => []) ++ [TagKind.BlockHeight fvm_tags_height]
    let signatures ← interpExtendVote bls node tags
    if signatures.isEmpty then pure [] else pure (toVec signatures)

/-- The loop of the interpreter's `verify_vote_extension`: `res &= verify` over the pairs, where
deserializing a signature may fail. -/
def verifySignatures (bls_pub_key : Pk) :
    List (SignatureKind × TagKind) → Bool → Except String Bool
  | [], res => .ok res
  | (sig, tag) :: rest, res => do
    let s ← sig.toBlsSignature bls
    verifySignatures bls_pub_key rest (res && bls.verifyMessages s tag.toVec bls_pub_key)

/-- The interpreter's `verify_vote_extension`: `None` when this node is not a validator or the
actor is disabled (and the extension carries nothing), and otherwise whether every signature
verifies against its tag under the validator's registered BLS key. -/
def interpVerifyVoteExtension (node : Node Address Id Sig) (id : Id) (tags : Tags)
    (sigs : SignedTags) : Except String (Option Bool) :=
  match node.validator_ctx with
  | none => .ok none
  | some _ =>
    match node.cetf with
    | none => .error "no CETF actor found!"
    | some st =>
      if !st.enabled then
        if !tags.isEmpty || !sigs.isEmpty then
          .error "CETF Actor is disabled! There should not be and tags or signatures"
        else .ok none
      else
        match node.key_map id with
        | none => .error "failed to get fvm address"
        | some fvm_addr =>
          match st.validators.lookup fvm_addr with
          | none => .error "called `Option::unwrap()` on a `None` value"
          | some bls_pub_key =>
            match bls.publicKeyFromBytes bls_pub_key with
            | none => .error "failed to deser bls pubkey"
            | some pk => do
              let res ← verifySignatures bls pk (sigs.zip tags) true
              pure (some res)

/-- The tag `App::verify_vote_extension` rebuilds for a signature: the CETF tag scheduled two
heights above the committed one, which must exist, or that height. -/
def expectedTag (node : Node Address Id Sig) : SignatureKind → Except String TagKind
  | .Cetf _ => do
    let tag ← node.getTagAtHeight (node.block_height + 2)
    match tag with
    | some tag => pure (.Cetf tag)
    | none => .error "failed to get tag at height: None"
  | .BlockHeight _ => pure (.BlockHeight (node.block_height + 2))

/-- `App::verify_vote_extension`: accept an empty extension; otherwise decode it, rebuild the tag
of each signature, and accept unless the interpreter says the signatures do not verify. -/
def verifyVoteExtension (fromSlice : List UInt8 → Option SignedTags) (node : Node Address Id Sig)
    (height : Nat) (validator_address : Id) (vote_extension : List UInt8) :
    Except String VerifyVoteExtension :=
  if height = 0 ∧ vote_extension.isEmpty then .ok .Accept
  else if vote_extension.isEmpty then .ok .Accept
  else
    match fromSlice vote_extension with
    | none => .error "failed to deserialize signatures"
    | some sigs => do
      let tags ← sigs.mapM (expectedTag node)
      let res ← interpVerifyVoteExtension bls node validator_address tags sigs
      match res with
      | some true => pure .Accept
      | some false => pure .Reject
      | none => pure .Accept

/-! ### What an accepted extension carries -/

/-- A signature of an extension verifies, under the key `pk`, against the tag the node expects
for it: the CETF tag scheduled two heights above the committed one, or that height's bytes. -/
def VerifiesExpected (node : Node Address Id Sig) (pk : Pk) (s : SignatureKind) : Prop :=
  ∃ sig, s.toBlsSignature bls = .ok sig ∧
    match s with
    | .Cetf _ => ∃ tag, (node.cetf.bind fun st => st.getTagAtHeight (node.block_height + 2)) =
        some tag ∧ bls.verifyMessages sig tag.toList pk = true
    | .BlockHeight _ => bls.verifyMessages sig (toBeBytes (node.block_height + 2)) pk = true

/-- The loop ends with `true` only from `true`, with every signature read and verified. The
induction is on the pairs; `res` only ever turns false. -/
theorem verifySignatures_eq_ok_true {pk : Pk} :
    ∀ {pairs : List (SignatureKind × TagKind)} {res : Bool},
      verifySignatures bls pk pairs res = .ok true →
        res = true ∧ ∀ p ∈ pairs, ∃ sig, p.1.toBlsSignature bls = .ok sig ∧
          bls.verifyMessages sig p.2.toVec pk = true
  | [], res, h => by
    simp only [verifySignatures, Except.ok.injEq] at h
    exact ⟨h, fun p hp => absurd hp List.not_mem_nil⟩
  | (s, tag) :: rest, res, h => by
    rw [verifySignatures, Except.bind_eq_ok] at h
    obtain ⟨sig, hsig, hrest⟩ := h
    obtain ⟨hres, hall⟩ := verifySignatures_eq_ok_true hrest
    rw [Bool.and_eq_true] at hres
    refine ⟨hres.1, fun p hp => ?_⟩
    rcases List.mem_cons.mp hp with rfl | hp
    · exact ⟨sig, hsig, hres.2⟩
    · exact hall p hp

omit [DecidableEq Address] in
/-- The tag rebuilt for a signature is the one `VerifiesExpected` names. -/
theorem verifiesExpected_of_expectedTag {node : Node Address Id Sig} {pk : Pk} {s : SignatureKind}
    {tag : TagKind} {sig : Sig} (htag : expectedTag node s = .ok tag)
    (hsig : s.toBlsSignature bls = .ok sig) (hv : bls.verifyMessages sig tag.toVec pk = true) :
    VerifiesExpected bls node pk s := by
  refine ⟨sig, hsig, ?_⟩
  cases s with
  | Cetf _ =>
    simp only [expectedTag, Node.getTagAtHeight, Except.bind_eq_ok] at htag
    obtain ⟨t, ht, htag⟩ := htag
    cases hc : node.cetf with
    | none => simp [hc] at ht
    | some st =>
      simp only [hc, Except.ok.injEq] at ht
      cases t with
      | none => cases htag
      | some t =>
        simp only [Except.pure_eq_ok, Except.ok.injEq] at htag
        subst htag
        exact ⟨t, by simp [ht], hv⟩
  | BlockHeight _ =>
    simp only [expectedTag, Except.pure_eq_ok, Except.ok.injEq] at htag
    subst htag
    exact hv

/-- Two lists related position by position: each element of the first meets its partner in the
zip. -/
theorem exists_mem_zip_of_forall₂ {α β : Type} {R : α → β → Prop} :
    ∀ {xs : List α} {ys : List β}, List.Forall₂ R xs ys →
      ∀ x ∈ xs, ∃ y, (x, y) ∈ xs.zip ys ∧ R x y
  | [], [], .nil, x, hx => absurd hx List.not_mem_nil
  | x' :: xs, y' :: ys, .cons hxy hrest, x, hx => by
    rcases List.mem_cons.mp hx with rfl | hx
    · exact ⟨y', by simp, hxy⟩
    · obtain ⟨y, hmem, hR⟩ := exists_mem_zip_of_forall₂ hrest x hx
      exact ⟨y, List.mem_cons_of_mem _ hmem, hR⟩

/-- When a validator node with the CETF actor enabled accepts a non-empty extension, the extension
decodes, the validator has a registered BLS key, and every signature it carries verifies under
that key against the tag the node expects for it. Nothing requires a CETF signature to be there:
an empty extension is accepted before any check. -/
theorem verifyVoteExtension_accept_verifies {fromSlice : List UInt8 → Option SignedTags}
    {node : Node Address Id Sig} {height : Nat} {id : Id} {vote_extension : List UInt8}
    {sign_tag : List UInt8 → Sig} {st : State Address} (hctx : node.validator_ctx = some sign_tag)
    (hst : node.cetf = some st) (hen : st.enabled = true) (hne : vote_extension ≠ [])
    (hacc : verifyVoteExtension bls fromSlice node height id vote_extension = .ok .Accept) :
    ∃ sigs fvm_addr bls_pub_key pk, fromSlice vote_extension = some sigs ∧
      node.key_map id = some fvm_addr ∧ st.validators.lookup fvm_addr = some bls_pub_key ∧
      bls.publicKeyFromBytes bls_pub_key = some pk ∧ ∀ s ∈ sigs, VerifiesExpected bls node pk s := by
  have hempty : vote_extension.isEmpty = false := List.isEmpty_eq_false_iff.mpr hne
  simp only [verifyVoteExtension, hempty, Bool.false_eq_true, and_false, if_false] at hacc
  cases hsigs : fromSlice vote_extension with
  | none => simp [hsigs] at hacc
  | some sigs =>
    rw [hsigs, Except.bind_eq_ok] at hacc
    obtain ⟨tags, htags, hacc⟩ := hacc
    rw [Except.bind_eq_ok] at hacc
    obtain ⟨res, hres, hacc⟩ := hacc
    -- The interpreter, on a validator node with the actor enabled, reads the registered key.
    simp only [interpVerifyVoteExtension, hctx, hst, hen, Bool.not_true, Bool.false_eq_true,
      if_false] at hres
    cases haddr : node.key_map id with
    | none => simp [haddr] at hres
    | some fvm_addr =>
      cases hkey : st.validators.lookup fvm_addr with
      | none => simp [haddr, hkey] at hres
      | some bls_pub_key =>
        cases hpk : bls.publicKeyFromBytes bls_pub_key with
        | none => simp [haddr, hkey, hpk] at hres
        | some pk =>
          simp only [haddr, hkey, hpk, Except.bind_eq_ok, Except.pure_eq_ok,
            Except.ok.injEq] at hres
          obtain ⟨b, hb, rfl⟩ := hres
          -- Only `Some(true)` is accepted here, so every pair verified.
          have hbtrue : b = true := by
            cases b
            · simp at hacc
            · rfl
          subst hbtrue
          obtain ⟨-, hall⟩ := verifySignatures_eq_ok_true bls hb
          refine ⟨sigs, fvm_addr, bls_pub_key, pk, rfl, rfl, hkey, hpk, fun s hs => ?_⟩
          obtain ⟨tag, hmem, htag⟩ :=
            exists_mem_zip_of_forall₂ (Except.forall₂_of_mapM_eq_ok htags) s hs
          obtain ⟨sig, hsig, hv⟩ := hall (s, tag) hmem
          exact verifiesExpected_of_expectedTag bls htag hsig hv

/-- A validator node at committed height 5, with the actor enabled and a tag scheduled at 7,
accepting an extension with one CETF signature; the scheme here takes any signature. -/
theorem verifyVoteExtension_accept_verifies_at_seven :
    let bls : BlsApi BlsSignature BlsPublicKey :=
      ⟨some, id, some, fun _ _ _ => true, List.head?, List.head?⟩
    let fromSlice : List UInt8 → Option SignedTags := fun _ => some [.Cetf (Vector.replicate 96 1)]
    let st : State Nat := ⟨(∅ : AList fun _ : Nat => Tag).insert 7 (Vector.replicate 32 1),
      (∅ : AList fun _ : Nat => BlsPublicKey).insert 1 (Vector.replicate 48 0), true, ∅⟩
    let node : Node Nat Nat BlsSignature := ⟨5, some st, some fun _ => Vector.replicate 96 1,
      fun _ => some 1⟩
    ∃ sigs fvm_addr bls_pub_key pk, fromSlice [0x81] = some sigs ∧
      node.key_map 1 = some fvm_addr ∧ st.validators.lookup fvm_addr = some bls_pub_key ∧
      bls.publicKeyFromBytes bls_pub_key = some pk ∧ ∀ s ∈ sigs, VerifiesExpected bls node pk s := by
  intro bls fromSlice st node
  exact verifyVoteExtension_accept_verifies bls rfl rfl rfl (by simp)
    (show verifyVoteExtension bls fromSlice node 6 1 [0x81] = .ok .Accept by decide)

/-- On a validator node with the actor enabled and a tag scheduled two heights up, the empty
extension is accepted, and so is an extension holding one valid height signature and no CETF
signature, whatever the BLS scheme and the decoding. -/
theorem verifyVoteExtension_accepts_without_cetf :
    ∀ {Sig Pk : Type} (bls : BlsApi Sig Pk) (fromSlice : List UInt8 → Option SignedTags)
      (sign_tag : List UInt8 → Sig) (s : BlsSignature) (sig : Sig) (pk : Pk),
      let st : State Nat := ⟨(∅ : AList fun _ : Nat => Tag).insert 7 (Vector.replicate 32 1),
        (∅ : AList fun _ : Nat => BlsPublicKey).insert 1 (Vector.replicate 48 0), true, ∅⟩
      let node : Node Nat Nat Sig := ⟨5, some st, some sign_tag, fun _ => some 1⟩
      verifyVoteExtension bls fromSlice node 6 1 [] = .ok .Accept ∧
        (fromSlice [0x81] = some [.BlockHeight s] → bls.signatureFromBytes s = some sig →
          bls.publicKeyFromBytes (Vector.replicate 48 0) = some pk →
          bls.verifyMessages sig (toBeBytes 7) pk = true →
          verifyVoteExtension bls fromSlice node 6 1 [0x81] = .ok .Accept) := by
  intro Sig Pk bls fromSlice sign_tag s sig pk st node
  refine ⟨by simp [verifyVoteExtension], fun hs hsig hpk hv => ?_⟩
  simp [verifyVoteExtension, hs, expectedTag, interpVerifyVoteExtension, node, st,
    verifySignatures, SignatureKind.toBlsSignature, SignatureKind.asSlice, TagKind.toVec, hsig,
    hpk, hv, -AList.insert_empty]

/-- Under a BLS API whose signatures verify only the height's own bytes, so that no signature of
the scheduled tag can verify, the node still accepts the empty extension and one holding only a
height signature. -/
theorem verifyVoteExtension_skips_scheduled_tag :
    let bls : BlsApi Unit Unit :=
      ⟨fun _ => some (), fun _ => Vector.replicate 96 0, fun _ => some (),
        fun _ m _ => decide (m = toBeBytes 7), fun _ => some (), fun _ => some ()⟩
    let fromSlice : List UInt8 → Option SignedTags :=
      fun _ => some [.BlockHeight (Vector.replicate 96 0)]
    let st : State Nat := ⟨(∅ : AList fun _ : Nat => Tag).insert 7 (Vector.replicate 32 1),
      (∅ : AList fun _ : Nat => BlsPublicKey).insert 1 (Vector.replicate 48 0), true, ∅⟩
    let node : Node Nat Nat Unit := ⟨5, some st, some fun _ => (), fun _ => some 1⟩
    st.getTagAtHeight 7 = some (Vector.replicate 32 1) ∧
      verifyVoteExtension bls fromSlice node 6 1 [] = .ok .Accept ∧
      verifyVoteExtension bls fromSlice node 6 1 [0x81] = .ok .Accept := by
  intro bls fromSlice st node
  obtain ⟨hempty, hheight⟩ := verifyVoteExtension_accepts_without_cetf bls fromSlice (fun _ => ())
    (Vector.replicate 96 0) () ()
  exact ⟨rfl, hempty, hheight rfl rfl rfl (by decide)⟩

end Delorean.Cetf
