/-
  The new-path key export in memory (`exportNewPathPrivateKeysForPurpose` in
  `export_private_key_new_path.c`).

  The caller's buffer is filled key by key, and a derivation or a check may
  throw between any two bytes of it.  The export either leaves all keys of the
  purpose in the buffer or leaves nothing there.
-/
import Concordium.Texts

namespace Concordium

open Buffer Wp

namespace KeyExport

/-! ## Derivations -/

/-- Largest value of a system exception. -/
def maxSystemException : UInt16 := 0x00FF

/-- What a derivation throws: an error word or a system exception.  Neither is
    zero, and none of them is the word of a success. -/
structure Thrown where
  code : UInt16
  ne_zero : code ≠ 0
  ne_success : code ≠ swoSuccess
deriving DecidableEq, Repr

/-- `get_extended_private_key` and `get_bls_private_key`: the key at a path, or
    what its derivation throws. -/
structure KeySource where
  getExtendedPrivateKey : DerivationPath → Except Thrown (Buf 32 × Buf 32)
  getBlsPrivateKey : DerivationPath → Except Thrown (Buf 32)

/-! ## Memory -/

/-- The caller's buffer and the locals of the function. -/
structure Memory (n : ℕ) where
  outputPrivateKey : Buf n
  tempPrivateKey : Buf 64
  tx : UInt8
  exportComplete : Bool
deriving DecidableEq, Repr

/-- A program of the export. -/
abbrev Export (n : ℕ) := EStateM Exception (Memory n)

variable {n : ℕ}

/-- `outputPrivateKey[tx++] = b`.  Outside the buffer, or past the last value of
    the position, is a fault. -/
def putByte (b : UInt8) : Export n Unit := do
  let m ← get
  if h : m.tx.toNat + [b].length ≤ n ∧ m.tx.toNat + 1 < 256 then
    set { m with
      outputPrivateKey := m.outputPrivateKey.write m.tx.toNat [b] h.1
      tx := m.tx + 1 }
  else
    throw .fault

/-- The copying loop from `tempPrivateKey[i]` on. -/
def copyKey : ℕ → ℕ → Export n Unit
  | 0, _ => pure ()
  | count + 1, i => do
    putByte ((← get).tempPrivateKey.bytes.getD i 0)
    copyKey count (i + 1)

/-- `if (tx + 1 + exportedKeyLength > outputPrivateKeySize) THROW(...)`. -/
def checkRoom (exportedKeyLength : ℕ) : Export n Unit := do
  if n < (← get).tx.toNat + 1 + exportedKeyLength then throw (.statusWord errorBufferOverflow)

/-- The call of `get_extended_private_key`, which wipes what it was given when
    it throws. -/
def deriveExtended (source : KeySource) (subpath : DerivationPath) : Export n Unit :=
  match source.getExtendedPrivateKey subpath with
  | .ok (privateKey, chainCode) => modify fun m => { m with
      tempPrivateKey := ⟨privateKey.bytes ++ chainCode.bytes, by
        rw [List.length_append, privateKey.size, chainCode.size]⟩ }
  | .error e => do
    modify fun m => { m with tempPrivateKey := Buf.zero 64 }
    throw (.statusWord e.code)

/-- The call of `get_bls_private_key`. -/
def deriveBls (source : KeySource) (subpath : DerivationPath) : Export n Unit :=
  match source.getBlsPrivateKey subpath with
  | .ok privateKey => modify fun m => { m with
      tempPrivateKey := m.tempPrivateKey.write 0 privateKey.bytes (by
        rw [privateKey.size]; decide) }
  | .error e => throw (.statusWord e.code)

/-- One round of the loop. -/
def exportKey (source : KeySource) (basePath : List UInt32) (account keyType : UInt32) :
    Export n Unit :=
  match appendExportKeyType basePath keyType account with
  | none => throw (.statusWord errorBufferOverflow)
  | some nodes => do
    let subpath := (DerivationPath.ofNodes nodes .invalid).harden
    if keyType = newCommitmentRandomness then
      checkRoom (2 * keyLength)
      putByte (UInt8.ofNat (2 * keyLength))
      deriveExtended source subpath
      copyKey (2 * keyLength) 0
    else
      checkRoom keyLength
      putByte (UInt8.ofNat keyLength)
      deriveBls source subpath
      copyKey keyLength 0

/-- The loop over `keysToExport`. -/
def exportKeys (source : KeySource) (basePath : List UInt32) (account : UInt32) :
    List UInt32 → Export n Unit
  | [] => pure ()
  | keyType :: keyTypes => do
    exportKey source basePath account keyType
    exportKeys source basePath account keyTypes

/-- `FINALLY`: the key at hand is wiped, and the buffer unless it is complete. -/
def wipe (m : Memory n) : Memory n :=
  { m with
    tempPrivateKey := Buf.zero 64
    outputPrivateKey := if m.exportComplete then m.outputPrivateKey else Buf.zero n }

/-- `TRY { x } CATCH_OTHER(e) { thrown = e; } FINALLY { ... }`: the value of
    `thrown` behind it. -/
def tryExport (x : Export n Unit) : Export n UInt16 := fun m =>
  match x m with
  | .ok _ m' => .ok 0 (wipe m')
  | .error (.statusWord e) m' => .ok e (wipe m')
  | .error .fault m' => .error .fault m'

/-- `exportNewPathPrivateKeysForPurpose`: `*sw` and the returned length. -/
def exportNewPathPrivateKeysForPurpose (source : KeySource) (purpose networkDesignation : UInt8)
    (identityProvider identity account : UInt32) : Export n (UInt16 × ℕ) :=
  match coinTypeOfNetwork networkDesignation, keysToExport purpose with
  | none, _ => pure (errorInvalidParam, 0)
  | some _, none => pure (errorInvalidParam, 0)
  | some coinType, some keyTypes => do
    modify fun m => { m with tx := 0, exportComplete := false }
    let thrown ← tryExport (do
      exportKeys source [newPurpose, coinType, identityProvider, identity] account keyTypes
      modify fun m => { m with exportComplete := true })
    if thrown ≠ 0 then
      -- a system exception goes on to the SDK
      if thrown ≤ maxSystemException then throw (.statusWord thrown) else return (thrown, 0)
    else
      return (swoSuccess, (← get).tx.toNat)

/-! ## What is exported -/

/-- The kinds of keys an export releases. -/
inductive KeyKind where
  | idCredSec | prfKey | signatureBlindingRandomness | commitmentRandomness
deriving DecidableEq, Repr

/-- The keys of a purpose, in the documented order. -/
def purposeKeys (purpose : UInt8) : Option (List KeyKind) :=
  if purpose = 0 then some [.idCredSec, .prfKey, .signatureBlindingRandomness]
  else if purpose = 1 then some [.prfKey, .idCredSec, .commitmentRandomness]
  else if purpose = 2 then some [.idCredSec, .signatureBlindingRandomness]
  else if purpose = 3 then some [.prfKey]
  else if purpose = 4 then some [.commitmentRandomness]
  else none

/-- Whose keys are exported. -/
structure Owner where
  coinType : UInt32
  identityProvider : UInt32
  identity : UInt32
  account : UInt32
deriving DecidableEq, Repr

/-- The nodes all keys of an owner share. -/
def Owner.basePath (o : Owner) : List UInt32 :=
  [newPurpose, o.coinType, o.identityProvider, o.identity]

namespace KeyKind

/-- The last segments of a key's path. -/
def nodes (account : UInt32) : KeyKind → List UInt32
  | idCredSec => [2]
  | prfKey => [3]
  | signatureBlindingRandomness => [4]
  | commitmentRandomness => [5, account]

/-- A key of the kind: an extended key for the commitment randomness, else a BLS
    field element. -/
def key (source : KeySource) (o : Owner) (kind : KeyKind) : Except Thrown Bytes :=
  let path := (DerivationPath.ofNodes (o.basePath ++ kind.nodes o.account) .invalid).harden
  match kind with
  | commitmentRandomness =>
    (source.getExtendedPrivateKey path).map fun k => k.1.bytes ++ k.2.bytes
  | _ => (source.getBlsPrivateKey path).map Buf.bytes

/-- The length of such a key. -/
def size : KeyKind → ℕ
  | commitmentRandomness => 64
  | _ => 32

/-- The node that names the kind. -/
def keyType : KeyKind → UInt32
  | idCredSec => newIdCredSec
  | prfKey => newPrfKey
  | signatureBlindingRandomness => newSignatureBlindingRandomness
  | commitmentRandomness => newCommitmentRandomness

end KeyKind

/-- A key behind its length, in one byte. -/
def withLength (key : Bytes) : Bytes := UInt8.ofNat key.length :: key

/-- The bytes an export of these kinds takes. -/
def exportSize (kinds : List KeyKind) : ℕ := (kinds.map fun kind => kind.size + 1).sum

@[simp] theorem exportSize_nil : exportSize [] = 0 := rfl

@[simp] theorem exportSize_cons (kind : KeyKind) (kinds : List KeyKind) :
    exportSize (kind :: kinds) = kind.size + 1 + exportSize kinds := by
  simp [exportSize]

theorem keysToExport_eq (purpose : UInt8) :
    keysToExport purpose = (purposeKeys purpose).map (List.map KeyKind.keyType) := by
  simp only [keysToExport, purposeKeys, p1IdentityCredentialCreation, p1AccountCreation,
    p1IdRecovery, p1AccountCredentialDiscovery, p1CreationOfZkProof,
    apply_ite (Option.map (List.map KeyKind.keyType)), Option.map_some, Option.map_none]
  rfl

theorem appendExportKeyType_eq (o : Owner) (kind : KeyKind) :
    appendExportKeyType o.basePath kind.keyType o.account =
      some (o.basePath ++ kind.nodes o.account) := by
  cases kind <;> rfl

/-- Every export of a purpose leaves the position below its last value. -/
theorem exportSize_lt {purpose : UInt8} {kinds : List KeyKind}
    (h : purposeKeys purpose = some kinds) : exportSize kinds < 256 := by
  unfold purposeKeys at h
  split_ifs at h <;> cases h <;> decide

section Except
variable {ε α β : Type} {x : Except ε α} {f : α → β}

theorem Except.map_ok_iff {b : β} : x.map f = .ok b ↔ ∃ a, x = .ok a ∧ f a = b := by
  cases x <;> simp [Except.map]

theorem Except.map_error_iff {e : ε} : x.map f = .error e ↔ x = .error e := by
  cases x <;> simp [Except.map]

end Except

theorem KeyKind.key_length {source : KeySource} {o : Owner} {kind : KeyKind} {key : Bytes}
    (h : kind.key source o = .ok key) : key.length = kind.size := by
  cases kind with
  | commitmentRandomness =>
    obtain ⟨k, -, rfl⟩ := Except.map_ok_iff.mp h
    simp [KeyKind.size, k.1.size, k.2.size]
  | _ =>
    obtain ⟨k, -, rfl⟩ := Except.map_ok_iff.mp h
    exact k.size

/-- A key that fits behind `used` bytes of a buffer of `n`, or the first thing
    thrown on the way to it. -/
def exportedKey (source : KeySource) (o : Owner) (n used : ℕ) (kind : KeyKind) :
    Except UInt16 Bytes :=
  if n < used + (kind.size + 1) then .error errorBufferOverflow
  else (kind.key source o).mapError Thrown.code

/-- The same for the keys of a purpose, one behind the other. -/
def exportedKeys (source : KeySource) (o : Owner) (n : ℕ) : ℕ → List KeyKind →
    Except UInt16 (List Bytes)
  | _, [] => .ok []
  | used, kind :: kinds =>
    match exportedKey source o n used kind with
    | .error sw => .error sw
    | .ok key => (exportedKeys source o n (used + (kind.size + 1)) kinds).map (key :: ·)

section Exported
variable {source : KeySource} {o : Owner} {n used : ℕ}

theorem exportedKey_ok {kind : KeyKind} {key : Bytes}
    (h : exportedKey source o n used kind = .ok key) : kind.key source o = .ok key := by
  unfold exportedKey at h
  split_ifs at h
  cases hkey : kind.key source o with
  | error t => rw [hkey] at h; cases h
  | ok k => rw [hkey] at h; cases h; rfl

theorem exportedKey_error {kind : KeyKind} {sw : UInt16}
    (h : exportedKey source o n used kind = .error sw) :
    sw = errorBufferOverflow ∨ ∃ t : Thrown, kind.key source o = .error t ∧ sw = t.code := by
  unfold exportedKey at h
  split_ifs at h
  · cases h
    exact Or.inl rfl
  · cases hkey : kind.key source o with
    | error t => rw [hkey] at h; cases h; exact Or.inr ⟨t, rfl, rfl⟩
    | ok k => rw [hkey] at h; cases h

theorem exportedKeys_ok {kinds : List KeyKind} {keys : List Bytes}
    (h : exportedKeys source o n used kinds = .ok keys) :
    List.Forall₂ (fun kind key => kind.key source o = .ok key) kinds keys := by
  induction kinds generalizing used keys with
  | nil => cases h; exact .nil
  | cons kind kinds ih =>
    unfold exportedKeys at h
    cases hkey : exportedKey source o n used kind with
    | error sw => rw [hkey] at h; cases h
    | ok key =>
      rw [hkey] at h
      obtain ⟨rest, hrest, rfl⟩ := Except.map_ok_iff.mp h
      exact .cons (exportedKey_ok hkey) (ih hrest)

/-- What stops an export: the size of the buffer, or the derivation of a key. -/
theorem exportedKeys_error {kinds : List KeyKind} {sw : UInt16}
    (h : exportedKeys source o n used kinds = .error sw) :
    sw = errorBufferOverflow ∨
      ∃ kind ∈ kinds, ∃ t : Thrown, kind.key source o = .error t ∧ sw = t.code := by
  induction kinds generalizing used with
  | nil => cases h
  | cons kind kinds ih =>
    unfold exportedKeys at h
    cases hkey : exportedKey source o n used kind with
    | error sw' =>
      rw [hkey] at h
      cases h
      refine (exportedKey_error hkey).imp_right ?_
      rintro ⟨t, ht⟩
      exact ⟨kind, List.mem_cons_self, t, ht⟩
    | ok key =>
      rw [hkey] at h
      refine (ih (Except.map_error_iff.mp h)).imp_right ?_
      rintro ⟨k, hk, t, ht⟩
      exact ⟨k, List.mem_cons_of_mem _ hk, t, ht⟩

theorem exportedKeys_error_ne {kinds : List KeyKind} {sw : UInt16}
    (h : exportedKeys source o n used kinds = .error sw) : sw ≠ 0 ∧ sw ≠ swoSuccess := by
  rcases exportedKeys_error h with rfl | ⟨_, -, t, -, rfl⟩
  · decide
  · exact ⟨t.ne_zero, t.ne_success⟩

/-- Nothing else stops it. -/
theorem exportedKeys_complete {kinds : List KeyKind}
    (hkeys : ∀ kind ∈ kinds, ∃ key, kind.key source o = .ok key)
    (hroom : used + exportSize kinds ≤ n) :
    ∃ keys, exportedKeys source o n used kinds = .ok keys := by
  induction kinds generalizing used with
  | nil => exact ⟨[], rfl⟩
  | cons kind kinds ih =>
    rw [exportSize_cons] at hroom
    obtain ⟨key, hkey⟩ := hkeys kind List.mem_cons_self
    obtain ⟨keys, hrest⟩ := ih (fun k hk => hkeys k (List.mem_cons_of_mem _ hk))
      (show used + (kind.size + 1) + exportSize kinds ≤ n by omega)
    refine ⟨key :: keys, ?_⟩
    rw [exportedKeys, exportedKey, if_neg (by omega), hkey, hrest]
    rfl

theorem exportedKeys_derived {kinds : List KeyKind} {keys : List Bytes} (hused : used ≤ n)
    (h : exportedKeys source o n used kinds = .ok keys) :
    (∀ kind ∈ kinds, ∃ key, kind.key source o = .ok key) ∧ used + exportSize kinds ≤ n := by
  induction kinds generalizing used keys with
  | nil => exact ⟨fun kind hkind => absurd hkind List.not_mem_nil, hused⟩
  | cons kind kinds ih =>
    unfold exportedKeys at h
    cases hkey : exportedKey source o n used kind with
    | error sw => rw [hkey] at h; cases h
    | ok key =>
      rw [hkey] at h
      have hroom : used + (kind.size + 1) ≤ n := by
        unfold exportedKey at hkey
        split_ifs at hkey with hfull
        omega
      obtain ⟨rest, hrest, -⟩ := Except.map_ok_iff.mp h
      obtain ⟨hkeys, hall⟩ := ih hroom hrest
      constructor
      · rintro k (_ | ⟨_, hk⟩)
        · exact ⟨key, exportedKey_ok hkey⟩
        · exact hkeys k hk
      · rw [exportSize_cons]
        omega

/-- No derivation and no check of the capacity fails. -/
structure Exportable (source : KeySource) (o : Owner) (kinds : List KeyKind) (n : ℕ) : Prop where
  keys : ∀ kind ∈ kinds, ∃ key, kind.key source o = .ok key
  room : exportSize kinds ≤ n

theorem exportable_of_ok {kinds : List KeyKind} {keys : List Bytes}
    (h : exportedKeys source o n 0 kinds = .ok keys) : Exportable source o kinds n := by
  obtain ⟨hkeys, hroom⟩ := exportedKeys_derived n.zero_le h
  exact ⟨hkeys, (Nat.zero_add _).symm.trans_le hroom⟩

theorem not_exportable_of_error {kinds : List KeyKind} {sw : UInt16}
    (h : exportedKeys source o n 0 kinds = .error sw) : ¬ Exportable source o kinds n := by
  rintro ⟨hkeys, hroom⟩
  obtain ⟨keys, hok⟩ := exportedKeys_complete hkeys ((Nat.zero_add _).trans_le hroom)
  rw [h] at hok
  cases hok

end Exported

/-! ## Filling the buffer -/

/-- `out` stands at the start of the buffer, the position is behind it, and the
    rest of the buffer is what it was in `b`. -/
structure Written (b : Buf n) (out : Bytes) (m : Memory n) : Prop where
  position : m.tx.toNat = out.length
  room : out.length ≤ n
  bytes : m.outputPrivateKey.bytes = out ++ b.bytes.drop out.length
  incomplete : m.exportComplete = false

variable {b : Buf n} {out : Bytes} {m : Memory n} {E : Exception → Memory n → Prop}
  {source : KeySource} {o : Owner}

theorem wp_putByte (h : Written b out m) (hroom : out.length < n) (hposition : out.length + 1 < 256)
    (x : UInt8) :
    wp (putByte x) (fun _ m' => Written b (out ++ [x]) m' ∧ m'.tempPrivateKey = m.tempPrivateKey)
      E m := by
  have hbound : m.tx.toNat + [x].length ≤ n ∧ m.tx.toNat + 1 < 256 := by
    rw [h.position, List.length_singleton]
    exact ⟨hroom, hposition⟩
  unfold putByte
  rw [wp_bind, wp_get, wp_dite]
  refine ⟨fun hb => ?_, fun hb => absurd hbound hb⟩
  rw [wp_set]
  refine ⟨⟨?_, ?_, ?_, h.incomplete⟩, rfl⟩
  · have htx : (m.tx + 1).toNat = m.tx.toNat + 1 := by
      rw [UInt8.toNat_add]
      exact Nat.mod_eq_of_lt hbound.2
    simpa [h.position] using htx
  · rw [List.length_append]
    exact hroom
  · show (m.outputPrivateKey.write m.tx.toNat [x] hb.1).bytes = _
    rw [Buf.write_bytes, h.bytes, h.position]
    simp

/-- The copying loop appends the part of the key that it passes. -/
theorem wp_copyKey (h : Written b out m) (count i : ℕ) (hi : i + count ≤ 64)
    (hroom : out.length + count ≤ n) (hposition : out.length + count < 256) :
    wp (copyKey count i)
      (fun _ m' => Written b (out ++ (m.tempPrivateKey.bytes.drop i).take count) m') E m := by
  induction count generalizing i out m with
  | zero => simpa [copyKey] using h
  | succ count ih =>
    have hlength : i < m.tempPrivateKey.bytes.length := by
      rw [m.tempPrivateKey.size]
      omega
    unfold copyKey
    simp only [wp_bind, wp_get]
    refine wp_mono ?_ (fun _ _ he => he)
      (wp_putByte h (by omega) (by omega) (m.tempPrivateKey.bytes.getD i 0))
    rintro - m' ⟨h', htemp⟩
    refine wp_mono ?_ (fun _ _ he => he)
      (ih h' (i + 1) (by omega) (by rw [List.length_append, List.length_singleton]; omega)
        (by rw [List.length_append, List.length_singleton]; omega))
    intro _ m'' h''
    have hdrop : (m.tempPrivateKey.bytes.drop i).take (count + 1) =
        m.tempPrivateKey.bytes.getD i 0 :: (m.tempPrivateKey.bytes.drop (i + 1)).take count := by
      rw [List.drop_eq_getElem_cons hlength, List.take_succ_cons, List.getD_eq_getElem _ _ hlength]
    rwa [htemp, List.append_assoc, List.singleton_append, ← hdrop] at h''

/-- A derivation of `key` leaves it at the start of `tempPrivateKey` or throws,
    and touches nothing else. -/
def Derives (derive : Export n Unit) (key : Except Thrown Bytes) : Prop :=
  ∀ m, wp derive
    (fun _ m' => ∃ k t, key = .ok k ∧ m' = { m with tempPrivateKey := t } ∧
      t.bytes.take k.length = k)
    (fun e m' => ∃ t : Thrown, key = .error t ∧ e = .statusWord t.code ∧
      m'.exportComplete = m.exportComplete) m

theorem derives_extended (o : Owner) :
    Derives (deriveExtended (n := n) source (DerivationPath.ofNodes
      (o.basePath ++ KeyKind.commitmentRandomness.nodes o.account) .invalid).harden)
      (KeyKind.commitmentRandomness.key source o) := by
  intro m
  have hkey : KeyKind.commitmentRandomness.key source o = (source.getExtendedPrivateKey
      (DerivationPath.ofNodes (o.basePath ++ KeyKind.commitmentRandomness.nodes o.account)
        .invalid).harden).map fun k => k.1.bytes ++ k.2.bytes := rfl
  rw [hkey]
  unfold deriveExtended
  cases source.getExtendedPrivateKey _ with
  | ok k => exact ⟨_, _, rfl, rfl, List.take_length⟩
  | error t => exact ⟨t, rfl, rfl, rfl⟩

theorem derives_bls (o : Owner) {kind : KeyKind} (hkind : kind ≠ .commitmentRandomness) :
    Derives (deriveBls (n := n) source
      (DerivationPath.ofNodes (o.basePath ++ kind.nodes o.account) .invalid).harden)
      (kind.key source o) := by
  intro m
  have hkey : kind.key source o = (source.getBlsPrivateKey
      (DerivationPath.ofNodes (o.basePath ++ kind.nodes o.account) .invalid).harden).map
      Buf.bytes := by
    cases kind <;> first | rfl | exact absurd rfl hkind
  rw [hkey]
  unfold deriveBls
  cases source.getBlsPrivateKey _ with
  | ok k => exact ⟨_, _, rfl, rfl, Buf.take_write _ _ (Nat.zero_add _).symm⟩
  | error t => exact ⟨t, rfl, rfl, rfl⟩

/-- One round, whatever kind of key it derives. -/
theorem wp_round (h : Written b out m) {kind : KeyKind} {derive : Export n Unit}
    (hderive : Derives derive (kind.key source o))
    (hposition : out.length + (kind.size + 1) < 256) :
    wp (do checkRoom kind.size; putByte (UInt8.ofNat kind.size); derive; copyKey kind.size 0)
      (fun _ m' => ∃ key, exportedKey source o n out.length kind = .ok key ∧
        Written b (out ++ withLength key) m')
      (fun e m' => ∃ sw, exportedKey source o n out.length kind = .error sw ∧
        e = .statusWord sw ∧ m'.exportComplete = false) m := by
  unfold checkRoom
  simp only [wp_bind, wp_get]
  refine wp_if (fun hroom => ?_) (fun hroom => ?_)
  · rw [h.position] at hroom
    exact ⟨_, if_pos (by omega), rfl, h.incomplete⟩
  rw [h.position] at hroom
  have hexported : exportedKey source o n out.length kind =
      (kind.key source o).mapError Thrown.code := if_neg (by omega)
  rw [wp_pure, wp_bind]
  refine wp_mono ?_ (fun _ _ he => he) (wp_putByte h (by omega) (by omega) _)
  rintro - m₁ ⟨h₁, -⟩
  rw [wp_bind]
  refine wp_mono ?_ ?_ (hderive m₁)
  · rintro - _ ⟨key, t, hkey, rfl, ht⟩
    have hsize : key.length = kind.size := KeyKind.key_length hkey
    have h₂ : Written b (out ++ [UInt8.ofNat kind.size]) { m₁ with tempPrivateKey := t } :=
      ⟨h₁.position, h₁.room, h₁.bytes, h₁.incomplete⟩
    have hlength : (out ++ [UInt8.ofNat kind.size]).length = out.length + 1 := List.length_append
    have hle : kind.size ≤ 64 := by cases kind <;> decide
    refine wp_mono ?_ (fun _ _ he => he)
      (wp_copyKey h₂ kind.size 0 (by omega) (by omega) (by omega))
    intro _ m' h'
    refine ⟨key, by rw [hexported, hkey]; rfl, ?_⟩
    rw [List.drop_zero, ← hsize, ht, List.append_assoc, List.singleton_append] at h'
    exact h'
  · rintro e m' ⟨t, ht, rfl, hcomplete⟩
    exact ⟨t.code, by rw [hexported, ht]; rfl, rfl, hcomplete.trans h₁.incomplete⟩

theorem wp_exportKey (h : Written b out m) (kind : KeyKind)
    (hposition : out.length + (kind.size + 1) < 256) :
    wp (exportKey source o.basePath o.account kind.keyType)
      (fun _ m' => ∃ key, exportedKey source o n out.length kind = .ok key ∧
        Written b (out ++ withLength key) m')
      (fun e m' => ∃ sw, exportedKey source o n out.length kind = .error sw ∧
        e = .statusWord sw ∧ m'.exportComplete = false) m := by
  unfold exportKey
  rw [appendExportKeyType_eq]
  cases kind with
  | commitmentRandomness => exact wp_round h (derives_extended o) hposition
  | _ => exact wp_round h (derives_bls o (by decide)) hposition

/-- The whole loop. -/
theorem wp_exportKeys (h : Written b out m) (kinds : List KeyKind)
    (hposition : out.length + exportSize kinds < 256) :
    wp (exportKeys source o.basePath o.account (kinds.map KeyKind.keyType))
      (fun _ m' => ∃ keys, exportedKeys source o n out.length kinds = .ok keys ∧
        Written b (out ++ keys.flatMap withLength) m')
      (fun e m' => ∃ sw, exportedKeys source o n out.length kinds = .error sw ∧
        e = .statusWord sw ∧ m'.exportComplete = false) m := by
  induction kinds generalizing out m with
  | nil => exact ⟨[], rfl, by simpa using h⟩
  | cons kind kinds ih =>
    rw [exportSize_cons] at hposition
    rw [List.map_cons, exportKeys, wp_bind]
    refine wp_mono ?_ ?_ (wp_exportKey h kind (by omega))
    · rintro - m₁ ⟨key, hkey, h₁⟩
      have hlength : (out ++ withLength key).length = out.length + (kind.size + 1) := by
        simp [withLength, KeyKind.key_length (exportedKey_ok hkey)]
      refine wp_mono ?_ ?_ (ih h₁ (by omega))
      · rintro - m' ⟨keys, hkeys, h'⟩
        rw [hlength] at hkeys
        refine ⟨key :: keys, by rw [exportedKeys, hkey, hkeys]; rfl, ?_⟩
        rwa [List.append_assoc, ← List.flatMap_cons] at h'
      · rintro e m' ⟨sw, hsw, rfl, hcomplete⟩
        rw [hlength] at hsw
        exact ⟨sw, by rw [exportedKeys, hkey, hsw]; rfl, rfl, hcomplete⟩
    · rintro e m' ⟨sw, hsw, rfl, hcomplete⟩
      exact ⟨sw, by rw [exportedKeys, hsw], rfl, hcomplete⟩

/-! ## All or nothing -/

theorem wp_tryExport {x : Export n Unit} {Q : UInt16 → Memory n → Prop}
    (h : wp x (fun _ m' => Q 0 (wipe m'))
      (fun e m' => ∃ sw, e = .statusWord sw ∧ Q sw (wipe m')) m) :
    wp (tryExport x) Q E m := by
  unfold wp at h ⊢
  unfold tryExport
  cases hx : x m with
  | ok a m' => rw [hx] at h; exact h
  | error e m' =>
    rw [hx] at h
    obtain ⟨sw, rfl, hQ⟩ := h
    exact hQ

/-- All keys are in the buffer, one behind the other, and the rest of it is
    what it was. -/
structure AllWritten (source : KeySource) (o : Owner) (kinds : List KeyKind) (m : Memory n)
    (length : ℕ) (m' : Memory n) : Prop where
  keys : ∃ keys, List.Forall₂ (fun kind key => kind.key source o = .ok key) kinds keys ∧
    length = (keys.flatMap withLength).length ∧
    m'.outputPrivateKey.bytes =
      keys.flatMap withLength ++ m.outputPrivateKey.bytes.drop length
  room : length ≤ n
  position : length < 256
  temp : m'.tempPrivateKey = Buf.zero 64

/-- No byte of a key is left. -/
structure Wiped (m' : Memory n) : Prop where
  output : m'.outputPrivateKey = Buf.zero n
  temp : m'.tempPrivateKey = Buf.zero 64

theorem wiped_wipe (h : m.exportComplete = false) : Wiped (wipe m) :=
  ⟨by simp [wipe, h], rfl⟩

/-- The export of a purpose to an owner. -/
theorem wp_exportPurpose {purpose network : UInt8} {kinds : List KeyKind} (o : Owner)
    (hcoin : coinTypeOfNetwork network = some o.coinType)
    (hkinds : purposeKeys purpose = some kinds)
    (m : Memory n) :
    wp (exportNewPathPrivateKeysForPurpose source purpose network o.identityProvider o.identity
        o.account)
      (fun r m' => (∃ keys, exportedKeys source o n 0 kinds = .ok keys ∧ r.1 = swoSuccess ∧
          r.2 = (keys.flatMap withLength).length ∧ AllWritten source o kinds m r.2 m' ∧
          m'.outputPrivateKey.bytes.take r.2 = keys.flatMap withLength) ∨
        ∃ sw, exportedKeys source o n 0 kinds = .error sw ∧ maxSystemException < sw ∧
          r = (sw, 0) ∧ Wiped m')
      (fun e m' => ∃ sw, exportedKeys source o n 0 kinds = .error sw ∧
        e = .statusWord sw ∧ sw ≤ maxSystemException ∧ Wiped m') m := by
  unfold exportNewPathPrivateKeysForPurpose
  rw [hcoin, keysToExport_eq, hkinds]
  show wp (do
    modify fun m => { m with tx := 0, exportComplete := false }
    let thrown ← tryExport (do
      exportKeys source o.basePath o.account (kinds.map KeyKind.keyType)
      modify fun m => { m with exportComplete := true })
    if thrown ≠ 0 then
      if thrown ≤ maxSystemException then throw (.statusWord thrown) else return (thrown, 0)
    else
      return (swoSuccess, (← get).tx.toNat)) _ _ m
  have hstart : Written m.outputPrivateKey [] { m with tx := 0, exportComplete := false } :=
    ⟨rfl, Nat.zero_le _, rfl, rfl⟩
  have hposition : ([] : Bytes).length + exportSize kinds < 256 := by
    rw [List.length_nil, Nat.zero_add]
    exact exportSize_lt hkinds
  rw [wp_bind, wp_modify, wp_bind]
  refine wp_tryExport ?_
  rw [wp_bind]
  refine wp_mono ?_ ?_ (wp_exportKeys hstart kinds hposition)
  · rintro - m₁ ⟨keys, hkeys, h₁⟩
    rw [List.nil_append] at h₁
    have htx : m₁.tx.toNat = (keys.flatMap withLength).length := h₁.position
    have hbytes : (wipe { m₁ with exportComplete := true }).outputPrivateKey.bytes =
        keys.flatMap withLength ++ m.outputPrivateKey.bytes.drop m₁.tx.toNat := by
      rw [htx]
      exact h₁.bytes
    have hroom : m₁.tx.toNat ≤ n := htx.trans_le h₁.room
    have htake : (wipe { m₁ with exportComplete := true }).outputPrivateKey.bytes.take m₁.tx.toNat =
        keys.flatMap withLength := by
      rw [hbytes, htx, List.take_left]
    exact Or.inl ⟨keys, hkeys, rfl, htx,
      ⟨⟨keys, exportedKeys_ok hkeys, htx, hbytes⟩, hroom, m₁.tx.toNat_lt, rfl⟩, htake⟩
  · rintro e m₁ ⟨sw, hsw, rfl, hcomplete⟩
    refine ⟨sw, rfl, ?_⟩
    rw [if_pos (exportedKeys_error_ne hsw).1]
    refine wp_if (fun hsystem => ?_) (fun hword => ?_)
    · exact ⟨sw, hsw, rfl, hsystem, wiped_wipe hcomplete⟩
    · exact Or.inr ⟨sw, hsw, UInt16.not_le.mp hword, rfl, wiped_wipe hcomplete⟩

/-- The export succeeds exactly where every key of the purpose can be derived and
    has room.  Then it leaves all keys, in order; else it leaves none, and what
    stopped it is returned.  A system exception leaves the function only behind
    the wipe, and no byte lands outside the buffer or past the 8-bit position.
    Arguments it does not know are refused before anything is written. -/
theorem keyExport_allOrNothing (source : KeySource) (purpose network : UInt8)
    (identityProvider identity account : UInt32) (m : Memory n) :
    wp (exportNewPathPrivateKeysForPurpose source purpose network identityProvider identity account)
      (fun r m' =>
        (∃ coinType kinds, coinTypeOfNetwork network = some coinType ∧
          purposeKeys purpose = some kinds ∧
          (r.1 = swoSuccess ↔
            Exportable source ⟨coinType, identityProvider, identity, account⟩ kinds n) ∧
          (r.1 = swoSuccess →
            AllWritten source ⟨coinType, identityProvider, identity, account⟩ kinds m r.2 m') ∧
          (r.1 ≠ swoSuccess → Wiped m' ∧ r.2 = 0 ∧
            exportedKeys source ⟨coinType, identityProvider, identity, account⟩ n 0 kinds =
              .error r.1)) ∨
        ((coinTypeOfNetwork network = none ∨ purposeKeys purpose = none) ∧
          r = (errorInvalidParam, 0) ∧ m' = m))
      (fun e m' => ∃ coinType kinds sw, coinTypeOfNetwork network = some coinType ∧
        purposeKeys purpose = some kinds ∧ e = .statusWord sw ∧ 0 < sw ∧
        sw ≤ maxSystemException ∧ Wiped m' ∧
        ¬ Exportable source ⟨coinType, identityProvider, identity, account⟩ kinds n ∧
        exportedKeys source ⟨coinType, identityProvider, identity, account⟩ n 0 kinds =
          .error sw) m := by
  cases hcoin : coinTypeOfNetwork network with
  | none =>
    unfold exportNewPathPrivateKeysForPurpose
    rw [hcoin]
    exact Or.inr ⟨Or.inl rfl, rfl, rfl⟩
  | some coinType =>
    cases hkinds : purposeKeys purpose with
    | none =>
      unfold exportNewPathPrivateKeysForPurpose
      rw [hcoin, keysToExport_eq, hkinds]
      exact Or.inr ⟨Or.inr rfl, rfl, rfl⟩
    | some kinds =>
      refine wp_mono ?_ ?_
        (wp_exportPurpose ⟨coinType, identityProvider, identity, account⟩ hcoin hkinds m)
      · rintro ⟨sw, length⟩ m' (⟨keys, hkeys, rfl, -, hall, -⟩ | ⟨_, hsw, -, heq, hwiped⟩)
        · exact Or.inl ⟨coinType, kinds, rfl, rfl, iff_of_true rfl (exportable_of_ok hkeys),
            fun _ => hall, fun hne => absurd rfl hne⟩
        · cases heq
          have hne := (exportedKeys_error_ne hsw).2
          exact Or.inl ⟨coinType, kinds, rfl, rfl,
            iff_of_false hne (not_exportable_of_error hsw), fun heq => absurd heq hne,
            fun _ => ⟨hwiped, rfl, hsw⟩⟩
      · rintro e m' ⟨sw, hsw, rfl, hsystem, hwiped⟩
        exact ⟨coinType, kinds, sw, rfl, rfl, rfl,
          UInt16.pos_iff_ne_zero.mpr (exportedKeys_error_ne hsw).1, hsystem, hwiped,
          not_exportable_of_error hsw, hsw⟩

/-- A source that fills a key with the last node of its path, and has commitment
    randomness for the accounts below a bound. -/
def markedSource (accounts : UInt32) : KeySource where
  getExtendedPrivateKey path :=
    let account := path.unharden.nodes.getLastD 0
    if account < accounts then
      .ok (⟨List.replicate 32 account.toUInt8, List.length_replicate⟩,
        ⟨List.replicate 32 0, List.length_replicate⟩)
    else .error ⟨errorFailedCxOperation, by decide, by decide⟩
  getBlsPrivateKey path :=
    .ok ⟨List.replicate 32 (path.unharden.nodes.getLastD 0).toUInt8, List.length_replicate⟩

/-- A buffer as `sendPrivateKeysNewPath` has it, full of other bytes. -/
def usedMemory : Memory 195 :=
  ⟨⟨List.replicate 195 0xEE, List.length_replicate⟩, Buf.zero 64, 0, false⟩

attribute [local irreducible] wp in
/-- Of account 7, a PRF key, an IdCredSec and a commitment randomness are
    exported; where the last one cannot be derived, nothing is. -/
theorem keyExport_account :
    wp (exportNewPathPrivateKeysForPurpose (markedSource 8) 1 0 0 0 7)
      (fun r m' => r = (swoSuccess, 131) ∧ m'.outputPrivateKey.bytes =
        32 :: List.replicate 32 3 ++ 32 :: List.replicate 32 2 ++
          64 :: (List.replicate 32 7 ++ List.replicate 32 0) ++ List.replicate 64 0xEE)
      (fun _ _ => False) usedMemory ∧
    wp (exportNewPathPrivateKeysForPurpose (markedSource 7) 1 0 0 0 7)
      (fun r m' => r = (errorFailedCxOperation, 0) ∧ m'.outputPrivateKey = Buf.zero 195)
      (fun _ _ => False) usedMemory := by
  have hcoin : coinTypeOfNetwork 0 = some newMainnetCoinType := rfl
  have hkinds : purposeKeys 1 = some [.prfKey, .idCredSec, .commitmentRandomness] := rfl
  constructor
  · have hkeys : exportedKeys (markedSource 8) ⟨newMainnetCoinType, 0, 0, 7⟩ 195 0
        [.prfKey, .idCredSec, .commitmentRandomness] =
        .ok [List.replicate 32 3, List.replicate 32 2,
          List.replicate 32 7 ++ List.replicate 32 0] := rfl
    refine wp_mono ?_ ?_ (keyExport_allOrNothing (markedSource 8) 1 0 0 0 7 usedMemory)
    · rintro ⟨sw, length⟩ m' (⟨coinType, kinds, hc, hk, hiff, hall, -⟩ | ⟨hnone, -⟩)
      · rw [hcoin] at hc
        rw [hkinds] at hk
        cases hc
        cases hk
        have hsw : sw = swoSuccess := hiff.mpr (exportable_of_ok hkeys)
        obtain ⟨⟨keys, hderived, hlength, hbytes⟩, -⟩ := hall hsw
        have heq := List.right_unique_forall₂' (fun _ _ _ h h' => by
          rw [h] at h'; exact Except.ok.inj h') hderived (exportedKeys_ok hkeys)
        subst heq
        have hlength : length = 131 := by simpa [withLength] using hlength
        subst hlength
        exact ⟨by rw [hsw], by simpa [withLength, usedMemory] using hbytes⟩
      · rw [hcoin, hkinds] at hnone
        rcases hnone with hnone | hnone <;> cases hnone
    · rintro e m' ⟨coinType, kinds, sw, hc, hk, -, -, -, -, -, hsw⟩
      obtain rfl := Option.some.inj (hcoin.symm.trans hc)
      obtain rfl := Option.some.inj (hkinds.symm.trans hk)
      rw [hkeys] at hsw
      cases hsw
  · have hfailed : exportedKeys (markedSource 7) ⟨newMainnetCoinType, 0, 0, 7⟩ 195 0
        [.prfKey, .idCredSec, .commitmentRandomness] = .error errorFailedCxOperation := rfl
    refine wp_mono ?_ ?_ (keyExport_allOrNothing (markedSource 7) 1 0 0 0 7 usedMemory)
    · rintro ⟨sw, length⟩ m' (⟨coinType, kinds, hc, hk, hiff, -, hfail⟩ | ⟨hnone, -⟩)
      · rw [hcoin] at hc
        rw [hkinds] at hk
        cases hc
        cases hk
        have hne : sw ≠ swoSuccess := fun heq =>
          not_exportable_of_error hfailed (hiff.mp heq)
        obtain ⟨hwiped, rfl, hsw⟩ := hfail hne
        rw [hfailed] at hsw
        cases hsw
        exact ⟨rfl, hwiped.output⟩
      · rw [hcoin, hkinds] at hnone
        rcases hnone with hnone | hnone <;> cases hnone
    · rintro e m' ⟨coinType, kinds, sw, hc, hk, -, -, hsystem, -, -, hsw⟩
      obtain rfl := Option.some.inj (hcoin.symm.trans hc)
      obtain rfl := Option.some.inj (hkinds.symm.trans hk)
      rw [hfailed] at hsw
      cases hsw
      exact absurd hsystem (by decide)

/-! ## The app's export -/

section App
variable [Platform] {used : ℕ}

/-- A failed call of the SDK, as `ensureNoError` throws it. -/
def failedCxOperation : Thrown := ⟨errorFailedCxOperation, by decide, by decide⟩

/-- A derivation that fails is thrown. -/
def orFailed {α : Type} : Option α → Except Thrown α
  | some a => .ok a
  | none => .error failedCxOperation

/-- The derivations of the platform. -/
def platformSource : KeySource where
  getExtendedPrivateKey path := orFailed (Platform.deriveSlip10 path.nodes)
  getBlsPrivateKey path :=
    orFailed ((Platform.deriveSlip10 path.nodes).bind fun k => Platform.blsKeygen k.1)

/-- A result as the app's programs return it. -/
def answer {α : Type} : Except UInt16 α → App α
  | .ok a => pure a
  | .error sw => throw (.statusWord sw)

omit [Platform] in
theorem ensureNoError_eq {α : Type} (x : Option α) :
    ensureNoError x = answer ((orFailed x).mapError Thrown.code) := by
  cases x <;> rfl

theorem getExtendedPrivateKey_eq (path : DerivationPath) :
    getExtendedPrivateKey path =
      answer ((platformSource.getExtendedPrivateKey path).mapError Thrown.code) :=
  ensureNoError_eq _

theorem getBlsPrivateKey_eq (path : DerivationPath) :
    getBlsPrivateKey path =
      answer ((platformSource.getBlsPrivateKey path).mapError Thrown.code) := by
  refine Eq.trans ?_ (ensureNoError_eq _)
  unfold getBlsPrivateKey getPrivateKey getExtendedPrivateKey
  cases Platform.deriveSlip10 path.nodes <;> rfl

omit [Platform] in
/-- A key behind its length, once there is room for it. -/
theorem answer_key {α : Type} {x : App α} {r : Except Thrown α} {f : α → Bytes} {n used size : ℕ}
    (hx : x = answer (r.mapError Thrown.code)) (hsize : ∀ a, r = .ok a → (f a).length = size) :
    (do
      throwIf (n < used + 1 + size) errorBufferOverflow
      let a ← x
      return UInt8.ofNat size :: f a) =
    answer ((if n < used + (size + 1) then Except.error errorBufferOverflow
      else (r.map f).mapError Thrown.code).map withLength) := by
  by_cases hroom : n < used + (size + 1)
  · rw [if_pos hroom, throwIf, if_pos (by omega)]
    rfl
  · rw [if_neg hroom, throwIf, if_neg (by omega), pure_bind, hx]
    cases r with
    | error t => rfl
    | ok a =>
      have ha : (f a).length = size := hsize a rfl
      show (pure (UInt8.ofNat size :: f a) : App Bytes) = pure (withLength (f a))
      rw [withLength, ha]

/-- The app exports the same keys, without the buffer. -/
theorem exportKey_eq (o : Owner) (n used : ℕ) (kind : KeyKind) :
    Concordium.exportKey o.basePath o.account n used kind.keyType =
      answer ((exportedKey platformSource o n used kind).map withLength) := by
  unfold Concordium.exportKey
  rw [appendExportKeyType_eq]
  cases kind with
  | commitmentRandomness =>
    exact answer_key (getExtendedPrivateKey_eq _) fun k _ => by
      exact (List.length_append).trans (by rw [k.1.size, k.2.size]; rfl)
  | _ => exact answer_key (getBlsPrivateKey_eq _) fun k _ => k.size

theorem exportKeys_eq (o : Owner) (n : ℕ) (kinds : List KeyKind) (out : Bytes) :
    Concordium.exportKeys o.basePath o.account n (kinds.map KeyKind.keyType) out =
      answer ((exportedKeys platformSource o n out.length kinds).map
        fun keys => out ++ keys.flatMap withLength) := by
  induction kinds generalizing out with
  | nil => exact congrArg pure (List.append_nil out).symm
  | cons kind kinds ih =>
    rw [List.map_cons, Concordium.exportKeys, exportKey_eq, exportedKeys]
    cases hkey : exportedKey platformSource o n out.length kind with
    | error sw => rfl
    | ok key =>
      have hlength : (out ++ withLength key).length = out.length + (kind.size + 1) := by
        simp [withLength, KeyKind.key_length (exportedKey_ok hkey)]
      show Concordium.exportKeys o.basePath o.account n (kinds.map KeyKind.keyType)
        (out ++ withLength key) = _
      rw [ih, hlength]
      cases exportedKeys platformSource o n (out.length + (kind.size + 1)) kinds with
      | error sw => rfl
      | ok keys => exact congrArg pure (List.append_assoc _ _ _)

theorem KeyKind.key_failed {o : Owner} {kind : KeyKind} {t : Thrown}
    (h : kind.key platformSource o = .error t) : t = failedCxOperation := by
  have hfailed : ∀ {α : Type} {x : Option α}, orFailed x = .error t → t = failedCxOperation := by
    rintro α (_ | _) hx <;> cases hx
    rfl
  cases kind <;> exact hfailed (Except.map_error_iff.mp h)

theorem exportedKeys_failed {o : Owner} {used : ℕ} {kinds : List KeyKind} {sw : UInt16}
    (h : exportedKeys platformSource o n used kinds = .error sw) : maxSystemException < sw := by
  rcases exportedKeys_error h with rfl | ⟨_, -, t, ht, rfl⟩
  · decide
  · rw [KeyKind.key_failed ht]
    decide

/-- The app's export returns what the export in memory leaves behind it, and
    the platform raises no system exception. -/
theorem exportNewPath_refined (purpose network : UInt8)
    (identityProvider identity account : UInt32) (m : Memory n) (w : World) :
    wp (exportNewPathPrivateKeysForPurpose platformSource purpose network identityProvider identity
        account)
      (fun r m' => Concordium.exportNewPathPrivateKeysForPurpose purpose network identityProvider
        identity account n w = .ok (r.1, m'.outputPrivateKey.bytes.take r.2) w)
      (fun _ _ => False) m := by
  cases hcoin : coinTypeOfNetwork network with
  | none =>
    unfold exportNewPathPrivateKeysForPurpose Concordium.exportNewPathPrivateKeysForPurpose
    rw [hcoin]
    rfl
  | some coinType =>
    cases hkinds : purposeKeys purpose with
    | none =>
      unfold exportNewPathPrivateKeysForPurpose Concordium.exportNewPathPrivateKeysForPurpose
      rw [hcoin, keysToExport_eq, hkinds]
      rfl
    | some kinds =>
      let o : Owner := ⟨coinType, identityProvider, identity, account⟩
      have hexport : Concordium.exportNewPathPrivateKeysForPurpose purpose network
          identityProvider identity account n = catching (do
            let out ← answer ((exportedKeys platformSource o n 0 kinds).map
              fun keys => [] ++ keys.flatMap withLength)
            return (swoSuccess, out)) fun sw => return (sw, []) := by
        unfold Concordium.exportNewPathPrivateKeysForPurpose
        rw [hcoin, keysToExport_eq, hkinds]
        show catching (do
          let out ← Concordium.exportKeys o.basePath o.account n (kinds.map KeyKind.keyType) []
          return (swoSuccess, out)) _ = _
        rw [exportKeys_eq]
        rfl
      refine wp_mono ?_ ?_ (wp_exportPurpose o hcoin hkinds m)
      · rintro ⟨sw, length⟩ m' (⟨keys, hkeys, rfl, -, -, htake⟩ | ⟨_, hsw, -, heq, -⟩)
        · rw [hexport, hkeys]
          exact congrArg (fun out => EStateM.Result.ok (swoSuccess, out) w) htake.symm
        · cases heq
          rw [hexport, hsw]
          rfl
      · rintro e m' ⟨sw, hsw, -, hle, -⟩
        exact UInt16.not_lt.mpr hle (exportedKeys_failed hsw)

/-- The app's export returns, always the same, and fits the buffer. -/
theorem exportNewPath_result (purpose network : UInt8)
    (identityProvider identity account : UInt32) :
    ∃ r : UInt16, ∃ out : Bytes, out.length ≤ 195 ∧ ∀ w : World,
      Concordium.exportNewPathPrivateKeysForPurpose purpose network identityProvider identity
        account 195 w = .ok (r, out) w := by
  let start : Memory 195 := ⟨Buf.zero 195, Buf.zero 64, 0, false⟩
  have hexport := exportNewPath_refined purpose network identityProvider identity account start
  unfold wp at hexport
  cases hrun : exportNewPathPrivateKeysForPurpose platformSource purpose network identityProvider
      identity account start with
  | ok r m' =>
    rw [hrun] at hexport
    exact ⟨_, _, (List.length_take_le' _ _).trans_eq (Buf.bytes_length _), hexport⟩
  | error e m' =>
    rw [hrun] at hexport
    exact (hexport World.start).elim

/-- However an approved export ends, no key stays in the app's own buffer. -/
theorem sendPrivateKeysNewPath_wiped {w : World}
    (hnew : (w.global.view ExportPrivateKeyContext).isNewPath = true) :
    wp sendPrivateKeysNewPath
      (fun _ w' => (w'.global.view ExportPrivateKeyContext).outputPrivateKeys = Buf.zero 195 ∧
        (w'.global.view ExportPrivateKeyContext).privateKeysLength = 0)
      (fun _ _ => False) w := by
  unfold sendPrivateKeysNewPath
  rw [wp_bind]
  show wp (if (w.global.view ExportPrivateKeyContext).isNewPath then _ else _) _ _ w
  rw [if_pos hnew, wp_bind]
  generalize w.global.view ExportPrivateKeyContext = ctx
  obtain ⟨r, out, hout, hrun⟩ := exportNewPath_result ctx.newPathPurpose ctx.newPathNetwork
    ctx.newPathIdentityProvider ctx.newPathIdentity ctx.newPathAccount
  have hfits : 0 + out.length ≤ 195 := by omega
  unfold wp
  rw [hrun]
  show wp (if r = swoSuccess then _ else _) _ _ w
  refine wp_if (fun _ => ?_) (fun _ => ⟨rfl, rfl⟩)
  rw [memmove, dif_pos hfits]
  exact ⟨rfl, rfl⟩

end App

end KeyExport

end Concordium
