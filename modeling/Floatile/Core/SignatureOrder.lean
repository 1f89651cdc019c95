import Floatile.Core.Signature
import Mathlib.Data.List.Permutation

/-! What the verification of an envelope depends on: the entries under trusted keys are tried in
their order, and one that cannot be read ends the search before a later one is tried. -/
namespace Floatile.Core.Signature

open Floatile.Lib
open Floatile.Lib.Checked (reject)

variable (lib : SignatureLib)

/-- The signature names the key. -/
def Names (signature : EnvelopeSignature) (key : Bytes32) : Prop :=
  signature.keyid = publisherKeyId lib key

/-- The text of a signature is that of 64 bytes, and the key is one. -/
def Readable (signature : EnvelopeSignature) (key : Bytes32) (bytes : List UInt8) : Prop :=
  decodeCanonicalBase64 lib signature.sig = .ok bytes ∧ bytes.length = 64 ∧
    lib.verifyingKey key = true

/-- The signature names the key and verifies under it. -/
def Verifies (pae : List UInt8) (signature : EnvelopeSignature) (key : Bytes32) : Prop :=
  Names lib signature key ∧
    ∃ bytes, Readable lib signature key bytes ∧ lib.verifyStrict key pae bytes = true

/-- The signature names the key and cannot be tried under it. -/
def Broken (signature : EnvelopeSignature) (key : Bytes32) : Prop :=
  Names lib signature key ∧ ¬∃ bytes, Readable lib signature key bytes

/-- A signature that is tried first ends the search with an error: it is broken under a trusted
key, and verifies under none before. -/
def Blocks (pae : List UInt8) (signature : EnvelopeSignature) : List Bytes32 → Prop
  | [] => False
  | key :: keys =>
    Broken lib signature key ∨ ¬Verifies lib pae signature key ∧ Blocks pae signature keys

/-- The search comes to a pair that verifies. -/
def Reaches (pae : List UInt8) : List (EnvelopeSignature × Bytes32) → Prop
  | [] => False
  | e :: pairs => Verifies lib pae e.1 e.2 ∨ ¬Broken lib e.1 e.2 ∧ Reaches pae pairs

/-- What the verification of an envelope is for. -/
structure Specified (envelope : SignatureEnvelope) (files : Files) (manifestPublisherId : String)
    (trusted : TrustedPublisher) : Prop where
  publisher : manifestPublisherId = trusted.publisherId
  active : trusted.state = .active
  payload : decodeCanonicalBase64 lib envelope.payload =
    .ok (signableContentDigest lib files).bytes
  unrevoked : ∀ s ∈ envelope.signatures, s.keyid ∉ trusted.revokedKeyIds
  verified : ∃ s ∈ envelope.signatures, ∃ key ∈ trusted.keys,
    Verifies lib (dssePae envelope.payloadType (signableContentDigest lib files).bytes) s key

/-- The form of an envelope: the type of its payload and the number of its signatures. -/
structure SignatureEnvelope.InForm (envelope : SignatureEnvelope) : Prop where
  payloadType : envelope.payloadType = packageDigestPayloadType
  signatures : 0 < envelope.signatures.length
  count : envelope.signatures.length ≤ maxPackageSignatures

/-- The pairs in the order in which they are tried. -/
def pairs (signatures : List EnvelopeSignature) (keys : List Bytes32) :
    List (EnvelopeSignature × Bytes32) :=
  signatures.flatMap (fun s => keys.map (fun key => (s,key)))

variable {lib} {pae : List UInt8} {s : EnvelopeSignature} {key : Bytes32}

theorem Broken.not_verifies (h : Broken lib s key) : ¬Verifies lib pae s key :=
  fun hv => h.2 (hv.2.imp fun _ hbytes => hbytes.1)

theorem trySignatures_eq_ok_iff (es : List (EnvelopeSignature × Bytes32)) (matched : Bool) :
    trySignatures lib pae es matched = .ok () ↔ Reaches lib pae es := by
  induction es generalizing matched with
  | nil => simp [trySignatures, Reaches]
  | cons e es ih =>
    obtain ⟨s,key⟩ := e
    rw [trySignatures, Reaches]
    by_cases hnames : s.keyid = publisherKeyId lib key
    · rw [if_neg (not_not.mpr hnames)]
      by_cases hread : ∃ bytes, Readable lib s key bytes
      · obtain ⟨bytes,hbytes,hlength,hkey⟩ := hread
        have hbroken : ¬Broken lib s key := fun h => h.2 ⟨bytes,hbytes,hlength,hkey⟩
        have hverifies : Verifies lib pae s key ↔ lib.verifyStrict key pae bytes = true := by
          constructor
          · rintro ⟨-,bytes',⟨hbytes',-,-⟩,hstrict⟩
            obtain rfl := Except.ok.inj (hbytes.symm.trans hbytes')
            exact hstrict
          · exact fun hstrict => ⟨hnames,bytes,⟨hbytes,hlength,hkey⟩,hstrict⟩
        simp only [hbytes, Checked.ok_bind, reject, hlength, hkey, ne_eq, not_true_eq_false,
          Bool.true_eq_false, if_false]
        rw [hverifies]
        by_cases hstrict : lib.verifyStrict key pae bytes = true
        · simp [hstrict]
        · simp [hstrict, hbroken, ih]
      · have hbroken : Broken lib s key := ⟨hnames,hread⟩
        simp only [hbroken.not_verifies, hbroken, not_true_eq_false, false_and, or_false, iff_false]
        simp only [Checked.bind_eq_ok, Checked.reject_eq_ok, not_not, Bool.not_eq_false]
        rintro ⟨bytes,hbytes,_,hlength,_,hkey,-⟩
        exact hread ⟨bytes,hbytes,hlength,hkey⟩
    · rw [if_pos hnames, ih]
      simp [Verifies, Broken, Names, hnames]

/-- A signature that does not block is passed, or the search ends with it. -/
theorem reaches_append_iff {keys : List Bytes32} (h : ¬Blocks lib pae s keys)
    (rest : List (EnvelopeSignature × Bytes32)) :
    Reaches lib pae (keys.map (fun key => (s,key)) ++ rest) ↔
      (∃ key ∈ keys, Verifies lib pae s key) ∨ Reaches lib pae rest := by
  induction keys with
  | nil => simp
  | cons key keys ih =>
    rw [Blocks, not_or, not_and] at h
    rw [List.map_cons, List.cons_append, Reaches, List.exists_mem_cons_iff]
    by_cases hverifies : Verifies lib pae s key
    · simp [hverifies]
    · simp [hverifies, h.1, ih (h.2 hverifies)]

theorem Blocks.not_reaches {keys : List Bytes32} (h : Blocks lib pae s keys)
    (rest : List (EnvelopeSignature × Bytes32)) :
    ¬Reaches lib pae (keys.map (fun key => (s,key)) ++ rest) := by
  induction keys with
  | nil => exact h.elim
  | cons key keys ih =>
    rw [List.map_cons, List.cons_append, Reaches]
    rcases h with hbroken | ⟨hverifies,hblocks⟩
    · simp [hbroken, hbroken.not_verifies]
    · simp [hverifies, ih hblocks]

theorem reaches_pairs_iff {signatures : List EnvelopeSignature} {keys : List Bytes32}
    (h : ∀ s ∈ signatures, ¬Blocks lib pae s keys) :
    Reaches lib pae (pairs signatures keys) ↔
      ∃ s ∈ signatures, ∃ key ∈ keys, Verifies lib pae s key := by
  induction signatures with
  | nil => simp [pairs, Reaches]
  | cons s signatures ih =>
    obtain ⟨hs,hrest⟩ := List.forall_mem_cons.mp h
    rw [pairs, List.flatMap_cons, reaches_append_iff hs, List.exists_mem_cons_iff]
    exact or_congr_right (ih hrest)

/-- Whatever is reached verifies. -/
theorem exists_verifies_of_reaches {signatures : List EnvelopeSignature} {keys : List Bytes32}
    (h : Reaches lib pae (pairs signatures keys)) :
    ∃ s ∈ signatures, ∃ key ∈ keys, Verifies lib pae s key := by
  have hmem : ∃ e ∈ pairs signatures keys, Verifies lib pae e.1 e.2 := by
    generalize pairs signatures keys = es at h
    induction es with
    | nil => exact h.elim
    | cons e es ih =>
      rcases h with hverifies | ⟨-,hrest⟩
      · exact ⟨e,List.mem_cons_self,hverifies⟩
      · obtain ⟨e',he',hverifies⟩ := ih hrest
        exact ⟨e',List.mem_cons_of_mem _ he',hverifies⟩
  obtain ⟨e,he,hverifies⟩ := hmem
  obtain ⟨s,hs,he⟩ := List.mem_flatMap.mp he
  obtain ⟨key,hkey,rfl⟩ := List.mem_map.mp he
  exact ⟨s,hs,key,hkey,hverifies⟩

section Envelope

variable {json : List UInt8} {envelope : SignatureEnvelope} {files : Files}
  {manifestPublisherId : String} {trusted : TrustedPublisher}

theorem verifySignatureEnvelope_eq_ok_iff (hsize : json.length ≤ maxSignatureEnvelopeBytes)
    (hparse : lib.parseEnvelope json = some envelope) (hform : envelope.InForm) :
    verifySignatureEnvelope lib json files manifestPublisherId trusted = .ok () ↔
      manifestPublisherId = trusted.publisherId ∧ trusted.state = .active ∧
      decodeCanonicalBase64 lib envelope.payload =
        .ok (signableContentDigest lib files).bytes ∧
      (∀ s ∈ envelope.signatures, s.keyid ∉ trusted.revokedKeyIds) ∧
      Reaches lib (dssePae envelope.payloadType (signableContentDigest lib files).bytes)
        (pairs envelope.signatures trusted.keys) := by
  have hstate : ¬trusted.state = .revoked ↔ trusted.state = .active := by
    cases trusted.state <;> simp
  have hsignatures : ¬(envelope.signatures.isEmpty ∨
      maxPackageSignatures < envelope.signatures.length) := by
    rintro (hempty | hmany)
    · have hpos := hform.signatures
      rw [List.isEmpty_iff.mp hempty] at hpos
      exact absurd hpos (lt_irrefl 0)
    · exact absurd hform.count (not_le.mpr hmany)
  unfold verifySignatureEnvelope
  simp only [hparse, Checked.check_bind_eq_ok, Checked.reject_eq_ok, not_lt, hsize, true_and,
    not_not, hstate, hform.payloadType, hsignatures, not_false_eq_true, ne_eq]
  cases hdecode : decodeCanonicalBase64 lib envelope.payload with
  | error e => simp
  | ok payload =>
    simp only [Checked.ok_bind, Checked.check_bind_eq_ok, Checked.reject_eq_ok, not_not,
      trySignatures_eq_ok_iff, Except.ok.injEq]
    refine and_congr_right fun _ => and_congr_right fun _ => ?_
    constructor
    · rintro ⟨-,rfl,hunrevoked,hreaches⟩
      refine ⟨rfl,?_,hreaches⟩
      simpa using hunrevoked
    · rintro ⟨rfl,hunrevoked,hreaches⟩
      refine ⟨(signableContentDigest lib files).length_eq,rfl,?_,hreaches⟩
      simpa using hunrevoked

/-- What is accepted is as specified. -/
theorem Specified.of_verified (hsize : json.length ≤ maxSignatureEnvelopeBytes)
    (hparse : lib.parseEnvelope json = some envelope) (hform : envelope.InForm)
    (h : verifySignatureEnvelope lib json files manifestPublisherId trusted = .ok ()) :
    Specified lib envelope files manifestPublisherId trusted := by
  obtain ⟨hpublisher,hactive,hpayload,hunrevoked,hreaches⟩ :=
    (verifySignatureEnvelope_eq_ok_iff hsize hparse hform).mp h
  exact ⟨hpublisher,hactive,hpayload,hunrevoked,exists_verifies_of_reaches hreaches⟩

/-- Only the text of an envelope in form is accepted. -/
theorem exists_envelope_of_verified
    (h : verifySignatureEnvelope lib json files manifestPublisherId trusted = .ok ()) :
    json.length ≤ maxSignatureEnvelopeBytes ∧
      ∃ envelope, lib.parseEnvelope json = some envelope ∧ envelope.InForm := by
  unfold verifySignatureEnvelope at h
  obtain ⟨hsize,h⟩ := Checked.check_bind_eq_ok.mp h
  obtain ⟨-,h⟩ := Checked.check_bind_eq_ok.mp h
  obtain ⟨-,h⟩ := Checked.check_bind_eq_ok.mp h
  refine ⟨not_lt.mp ((Checked.reject_eq_ok _ _ _).mp hsize),?_⟩
  split at h
  · cases h
  · next envelope hparse =>
    obtain ⟨htype,h⟩ := Checked.check_bind_eq_ok.mp h
    obtain ⟨hcount,-⟩ := Checked.check_bind_eq_ok.mp h
    rw [Checked.reject_eq_ok, not_or, List.isEmpty_iff, not_lt] at hcount
    exact ⟨envelope,hparse,not_not.mp ((Checked.reject_eq_ok _ _ _).mp htype),
      List.length_pos_iff.mpr hcount.1,hcount.2⟩

theorem SignatureEnvelope.InForm.perm (h : envelope.InForm) {signatures : List EnvelopeSignature}
    (hperm : signatures.Perm envelope.signatures) :
    SignatureEnvelope.InForm { envelope with signatures := signatures } :=
  ⟨h.payloadType,hperm.length_eq ▸ h.signatures,hperm.length_eq ▸ h.count⟩

theorem specified_perm_iff {signatures : List EnvelopeSignature}
    (hperm : signatures.Perm envelope.signatures) :
    Specified lib { envelope with signatures := signatures } files manifestPublisherId trusted ↔
      Specified lib envelope files manifestPublisherId trusted := by
  constructor
  · rintro ⟨hpublisher,hactive,hpayload,hunrevoked,s,hs,hverified⟩
    exact ⟨hpublisher,hactive,hpayload,fun s hs => hunrevoked s (hperm.mem_iff.mpr hs),
      ⟨s,hperm.mem_iff.mp hs,hverified⟩⟩
  · rintro ⟨hpublisher,hactive,hpayload,hunrevoked,s,hs,hverified⟩
    exact ⟨hpublisher,hactive,hpayload,fun s hs => hunrevoked s (hperm.mem_iff.mp hs),
      ⟨s,hperm.mem_iff.mpr hs,hverified⟩⟩

end Envelope

/-- The text of an envelope with its signatures in another order is as long. -/
def Reorders (parseEnvelope : List UInt8 → Option SignatureEnvelope) : Prop :=
  ∀ json envelope signatures, parseEnvelope json = some envelope →
    signatures.Perm envelope.signatures → ∃ json', json'.length = json.length ∧
      parseEnvelope json' = some { envelope with signatures := signatures }

/-- An envelope is accepted in every order of its signatures exactly as specified, if and only if
it is not as specified, or none of its signatures blocks those after it. -/
theorem verified_in_every_order_iff (hreorders : Reorders lib.parseEnvelope) {json : List UInt8}
    {envelope : SignatureEnvelope} (hsize : json.length ≤ maxSignatureEnvelopeBytes)
    (hparse : lib.parseEnvelope json = some envelope) (hform : envelope.InForm) (files : Files)
    (manifestPublisherId : String) (trusted : TrustedPublisher) :
    (∀ json' signatures, signatures.Perm envelope.signatures →
      json'.length ≤ maxSignatureEnvelopeBytes →
      lib.parseEnvelope json' = some { envelope with signatures := signatures } →
      (verifySignatureEnvelope lib json' files manifestPublisherId trusted = .ok () ↔
        Specified lib envelope files manifestPublisherId trusted)) ↔
    (Specified lib envelope files manifestPublisherId trusted →
      ∀ s ∈ envelope.signatures, ¬Blocks lib
        (dssePae envelope.payloadType (signableContentDigest lib files).bytes) s
        trusted.keys) := by
  constructor
  · intro hall hspecified s hs hblocks
    obtain ⟨before,after,hsplit⟩ := List.append_of_mem hs
    have hperm : (s :: (before ++ after)).Perm envelope.signatures := by
      rw [hsplit]
      exact List.perm_middle.symm
    obtain ⟨json',hlength,hparse'⟩ := hreorders json envelope _ hparse hperm
    have hsize' : json'.length ≤ maxSignatureEnvelopeBytes := hlength.trans_le hsize
    have haccepted := (hall json' _ hperm hsize' hparse').mpr hspecified
    have hreaches :=
      ((verifySignatureEnvelope_eq_ok_iff hsize' hparse' (hform.perm hperm)).mp haccepted).2.2.2.2
    exact hblocks.not_reaches _ hreaches
  · intro hpasses json' signatures hperm hsize' hparse'
    have hform' := hform.perm hperm
    constructor
    · intro haccepted
      exact (specified_perm_iff hperm).mp (Specified.of_verified hsize' hparse' hform' haccepted)
    · intro hspecified
      have hsame := (specified_perm_iff hperm).mpr hspecified
      refine (verifySignatureEnvelope_eq_ok_iff hsize' hparse' hform').mpr
        ⟨hsame.publisher,hsame.active,hsame.payload,hsame.unrevoked,?_⟩
      have hnone : ∀ s ∈ signatures, ¬Blocks lib
          (dssePae envelope.payloadType (signableContentDigest lib files).bytes) s trusted.keys :=
        fun s hs => hpasses hspecified s (hperm.mem_iff.mp hs)
      exact (reaches_pairs_iff hnone).mpr hsame.verified

/-- A key pair's public half. -/
def signerKey : Bytes32 where
  bytes := [
    215,90,152,1,130,177,10,183,213,75,254,211,201,100,7,58,14,225,114,243,218,166,35,37,175,2,26,
    104,247,7,81,26]
  length_eq := by decide

/-- The SHA-256 digest of the key. -/
def signerKeyDigest : Bytes32 where
  bytes := [
    33,254,49,223,161,84,162,97,98,107,248,84,4,111,210,39,27,123,237,75,106,190,69,170,88,135,
    126,244,127,151,33,185]
  length_eq := by decide

/-- A package with an empty object as its manifest. -/
def signedFiles : Files := OrdMap.ofList [("manifest.json",[0x7B,0x7D])]

def signedDigest : Bytes32 where
  bytes := [
    207,37,221,121,42,56,33,93,219,188,187,175,26,177,145,60,93,37,230,117,102,155,244,18,181,232,
    86,111,72,80,178,249]
  length_eq := by decide

def signedBytes : List UInt8 := [
  218,142,215,73,89,225,146,2,140,26,20,72,12,10,246,172,187,49,195,174,26,114,65,126,38,133,132,
  55,254,65,229,56,17,164,134,227,101,125,73,66,112,153,149,252,86,21,77,19,70,189,76,99,129,23,
  204,139,169,73,138,105,160,51,237,9]

def signedPayload : String := "zyXdeSo4IV3bvLuvGrGRPF0l5nVmm/QStehWb0hQsvk="

/-- The signature of the package. -/
def validEntry : EnvelopeSignature where
  keyid := "21fe31dfa154a261626bf854046fd2271b7bed4b6abe45aa58877ef47f9721b9"
  sig := "2o7XSVnhkgKMGhRIDAr2rLsxw64ackF+JoWEN/5B5TgRpIbjZX1JQnCZlfxWFU0TRr1MY4EXzIupSYppoDPtCQ=="

/-- An entry under the same key whose text is that of three bytes. -/
def shortEntry : EnvelopeSignature := { validEntry with sig := "AAAA" }

/-- An entry under the same key whose text is that of 64 zeros, which is no signature. -/
def wrongEntry : EnvelopeSignature where
  keyid := validEntry.keyid
  sig := "AAAAAAAAAAAAAAAAAAAAAAAAAAAAAAAAAAAAAAAAAAAAAAAAAAAAAAAAAAAAAAAAAAAAAAAAAAAAAAAAAAAAAA=="

def signedEnvelope (signatures : List EnvelopeSignature) : SignatureEnvelope :=
  ⟨packageDigestPayloadType,signedPayload,signatures⟩

def entryJson (s : EnvelopeSignature) : String :=
  "\x7b\"keyid\":\"" ++ s.keyid ++ "\",\"sig\":\"" ++ s.sig ++ "\"\x7d"

def envelopeJson (signatures : List EnvelopeSignature) : List UInt8 := utf8 <|
  "\x7b\"payloadType\":\"" ++ packageDigestPayloadType ++ "\",\"payload\":\"" ++
  signedPayload ++ "\",\"signatures\":[" ++ ",".intercalate (signatures.map entryJson) ++ "]\x7d"

/-- The entries whose envelopes are looked at, in both orders. -/
def signaturePairs : List (EnvelopeSignature × EnvelopeSignature) :=
  [(validEntry,shortEntry),(shortEntry,validEntry),(wrongEntry,validEntry),(validEntry,wrongEntry)]

/-- The external functions on these envelopes. -/
def signerLib : SignatureLib where
  sha256 input := if input = signerKey.bytes then signerKeyDigest else signedDigest
  parseEnvelope bytes :=
    (signaturePairs.find? (fun p => envelopeJson [p.1,p.2] = bytes)).map
      (fun p => signedEnvelope [p.1,p.2])
  base64Decode text :=
    if text = signedPayload then some signedDigest.bytes
    else if text = validEntry.sig then some signedBytes
    else if text = shortEntry.sig then some [0,0,0]
    else if text = wrongEntry.sig then some (List.replicate 64 0)
    else none
  base64Encode bytes :=
    if bytes = signedDigest.bytes then signedPayload
    else if bytes = signedBytes then validEntry.sig
    else if bytes = [0,0,0] then shortEntry.sig
    else wrongEntry.sig
  verifyingKey key := key = signerKey
  verifyStrict key _ bytes := key = signerKey ∧ bytes = signedBytes

def signer : TrustedPublisher := ⟨"org.example",.active,[signerKey],[]⟩

/-- The envelopes read back, and what becomes of the entry that cannot be read. -/
theorem signer_evaluated :
    (∀ p ∈ signaturePairs,
      (envelopeJson [p.1,p.2]).length ≤ maxSignatureEnvelopeBytes ∧
      signerLib.parseEnvelope (envelopeJson [p.1,p.2]) = some (signedEnvelope [p.1,p.2]) ∧
      p.swap ∈ signaturePairs ∧
      (envelopeJson [p.2,p.1]).length = (envelopeJson [p.1,p.2]).length) ∧
    verifySignatureEnvelope signerLib (envelopeJson [validEntry,shortEntry]) signedFiles
      "org.example" signer = .ok () ∧
    verifySignatureEnvelope signerLib (envelopeJson [shortEntry,validEntry]) signedFiles
      "org.example" signer = .error .malformedEnvelope := by
  decide +kernel

theorem inForm_signedEnvelope (a b : EnvelopeSignature) : (signedEnvelope [a,b]).InForm :=
  ⟨rfl,Nat.two_pos,Nat.le_add_left 2 6⟩

/-- Two entries have two orders. -/
theorem perm_pair_cases {a b : EnvelopeSignature} {signatures : List EnvelopeSignature}
    (h : signatures.Perm [a,b]) : signatures = [a,b] ∨ signatures = [b,a] := by
  have hmem := List.mem_permutations.mpr h
  simpa [List.permutations] using hmem

theorem reorders_signerLib : Reorders signerLib.parseEnvelope := by
  intro json envelope signatures' hparse hperm
  obtain ⟨p,hfound,rfl⟩ := Option.map_eq_some_iff.mp hparse
  have hjson : envelopeJson [p.1,p.2] = json := by simpa using List.find?_some hfound
  obtain ⟨-,hread,hswap,hlength⟩ := signer_evaluated.1 p (List.mem_of_find?_eq_some hfound)
  rcases perm_pair_cases hperm with rfl | rfl
  · exact ⟨json,rfl,hjson ▸ hread⟩
  · exact ⟨envelopeJson [p.2,p.1],hjson ▸ hlength,(signer_evaluated.1 p.swap hswap).2.1⟩

/-- The same envelope is accepted in one order and refused in the other. -/
theorem shortEntry_first_refused :
    Specified signerLib (signedEnvelope [validEntry,shortEntry]) signedFiles "org.example" signer ∧
    verifySignatureEnvelope signerLib (envelopeJson [validEntry,shortEntry]) signedFiles
      "org.example" signer = .ok () ∧
    verifySignatureEnvelope signerLib (envelopeJson [shortEntry,validEntry]) signedFiles
      "org.example" signer = .error .malformedEnvelope := by
  have hmem : (validEntry,shortEntry) ∈ signaturePairs := by decide
  obtain ⟨hread,haccepted,hrefused⟩ := signer_evaluated
  obtain ⟨hsize,hparse,-,-⟩ := hread _ hmem
  exact ⟨Specified.of_verified hsize hparse (inForm_signedEnvelope _ _) haccepted,haccepted,
    hrefused⟩

/-- Both entries can be tried, and the right one verifies. -/
theorem specified_wrongEntry : Specified signerLib (signedEnvelope [wrongEntry,validEntry])
    signedFiles "org.example" signer := by
  refine ⟨rfl,rfl,by decide +kernel,fun _ _ => List.not_mem_nil,validEntry,?_,signerKey,?_,?_⟩
  · exact List.mem_cons_of_mem _ List.mem_cons_self
  · exact List.mem_cons_self
  · have hnames : validEntry.keyid = publisherKeyId signerLib signerKey := by decide +kernel
    exact ⟨hnames,signedBytes,⟨by decide +kernel,rfl,rfl⟩,rfl⟩

theorem validEntry_as_specified :
    Specified signerLib (signedEnvelope [wrongEntry,validEntry]) signedFiles "org.example" signer ∧
    verifySignatureEnvelope signerLib (envelopeJson [wrongEntry,validEntry]) signedFiles
      "org.example" signer = .ok () ∧
    verifySignatureEnvelope signerLib (envelopeJson [validEntry,wrongEntry]) signedFiles
      "org.example" signer = .ok () := by
  have hmem : (wrongEntry,validEntry) ∈ signaturePairs := by decide
  obtain ⟨hsize,hparse,hswap,-⟩ := signer_evaluated.1 _ hmem
  obtain ⟨hsize',hparse',-,-⟩ := signer_evaluated.1 _ hswap
  have hevery := (verified_in_every_order_iff reorders_signerLib hsize hparse
    (inForm_signedEnvelope _ _) signedFiles "org.example" signer).mpr ?_
  · exact ⟨specified_wrongEntry,
      (hevery _ _ (List.Perm.refl _) hsize hparse).mpr specified_wrongEntry,
      (hevery _ _ (List.Perm.swap _ _ _) hsize' hparse').mpr specified_wrongEntry⟩
  intro _ s hs hblocks
  have hread : ∃ bytes, Readable signerLib s signerKey bytes := by
    rcases List.mem_pair.mp hs with rfl | rfl
    · exact ⟨List.replicate 64 0,by decide +kernel,rfl,rfl⟩
    · exact ⟨signedBytes,by decide +kernel,rfl,rfl⟩
  rcases hblocks with ⟨-,hbroken⟩ | ⟨-,hblocks⟩
  · exact hbroken hread
  · exact hblocks

end Floatile.Core.Signature
