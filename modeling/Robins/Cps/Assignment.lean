import Robins.Cps.Permit
import Robins.Cps.Tree

/-!
# Permits between commands

One command issues a permit: it looks up the scope of a target, chooses the last block, signs the
payload and prints the artifact.  Another command reads it, perhaps much later and at another place
of the tree, checks it against its own chain and its own finalized block, and assigns the identity.

The scope is asked for twice, at different blocks, and the block number three times; so nothing but
the artifact connects the two commands.  A read of a block may fail in either of them, and nothing
is then issued or assigned.

## What is accepted and what is issued

`checkPermit_eq_ok_iff` and `of_identityPermitPayload` say of each command alone what its success
comes to.  An identity that is assigned was named without a permit, or its account has signed for
the scope of the node at the block that was checked (`Assigned`).  A permit that is issued is for
the scope of its target, and for a window of blocks that the runtime allows (`Issues`).

## From one command to the other

`assignment_of_permit` puts them together.  What one command has printed is accepted by another
exactly on the chain it was issued for, for nodes then in its scope, up to its last block, and for
the account that signed it.  What is needed of the libraries for this is that a signature is
accepted that was just made, and that the JSON document is read as it was written.
-/

namespace Robins
namespace Cps

open Bridge

/-! ## The chain -/

/-- Why a view of a node is refused. -/
inductive NodeViewError where
  | nodeNotFound
  | other (text : String)
  deriving DecidableEq

/-- A pinned block, with what is asked about permits. -/
structure Head where
  block : At
  number : UInt64
  resolveScope : UInt64 → Except String (Except NodeViewError UInt64)
  maxIdentityPermitTtl : Except String UInt32

/-- Number of the block, at most the largest that 32 bits hold. -/
def Head.blockNumber (head : Head) : UInt32 :=
  if head.number.toNat < 2 ^ 32 then head.number.toUInt32 else 4294967295

/-- The error of a view that was refused. -/
def nodeView {α : Type} (node : UInt64) : Except NodeViewError α → Except Error α
  | .error .nodeNotFound => .error (.nodeNotFound node)
  | .error (.other text) => .error (.runtime ("CPS view function failed: " ++ text))
  | .ok a => .ok a

/-- The scope that a node is in. -/
def Head.scopeOf (head : Head) (node : UInt64) : Except Error UInt64 :=
  runtime (head.resolveScope node) >>= nodeView node

/-! ## Issuing -/

/-- Payload an identity account signs to issue a permit, valid until a block. -/
def identityPermitPayload (genesisHash : FixedBytes 32) (finalized : Except Error Head)
    (scope : UInt64) (validUntil : UInt32) : Except Error IdentityPermitPayload :=
  finalized >>= fun head =>
    runtime head.maxIdentityPermitTtl >>= fun ttl =>
      let now := head.blockNumber
      if validUntil < now then
        .error (.crypto ("permit validity " ++ toString validUntil.toNat ++
          " is before the current block " ++ toString now.toNat))
      else if now.toNat + ttl.toNat < validUntil.toNat then
        .error (.crypto ("permit validity " ++ toString validUntil.toNat ++
          " exceeds the runtime limit: at most " ++ toString ttl.toNat ++ " blocks after block " ++
          toString now.toNat))
      else .ok ⟨genesisHash, scope, validUntil⟩

/-- Arguments of `identity permit`. -/
structure PermitArgs where
  target : Target
  ttl : Option UInt32
  validUntil : Option UInt32

def defaultTtl : UInt32 := 600

/-- The last block at which the permit is to be valid. -/
def PermitArgs.lastBlock (args : PermitArgs) (now maxTtl : UInt32) : Except String UInt32 :=
  match args.validUntil with
  | some block => .ok block
  | none =>
    let ttl := args.ttl.getD (min defaultTtl maxTtl)
    if now.toNat + ttl.toNat < 2 ^ 32 then .ok (now + ttl)
    else .error "ttl overflows the block number"

/-- An error of the library, as the command line shows it. -/
def anyhow {α : Type} (r : Except Error α) : Except String α := r.mapError Error.toText

/-- `identity permit`, up to the payload.  The target is resolved at the block that is read, the
validity is checked at the latest one. -/
def permitPayload (ss58 : Ss58) (genesisHash : FixedBytes 32) (reader finalized : Except Error Head)
    (args : PermitArgs) : Except String IdentityPermitPayload :=
  anyhow reader >>= fun head =>
    anyhow (args.target.nodeId ss58 head.block) >>= fun node =>
      anyhow (head.scopeOf node) >>= fun scope =>
        anyhow (runtime head.maxIdentityPermitTtl) >>= fun maxTtl =>
          args.lastBlock head.blockNumber maxTtl >>= fun validUntil =>
            anyhow (identityPermitPayload genesisHash finalized scope validUntil)

/-- `identity permit`: what is printed.  The artifact is printed once more, as a JSON value. -/
def permit (crates : PermitCrates) (reprint : String → Except String String) (ss58 : Ss58)
    (genesisHash : FixedBytes 32) (reader finalized : Except Error Head) (args : PermitArgs)
    (key : IdentityKey) : Except String String :=
  permitPayload ss58 genesisHash reader finalized args >>= fun payload =>
    reprint ((payload.sign key).toJson crates)

/-! ## Assigning -/

/-- A permit, as the runtime takes it. -/
structure IdentityPermit where
  validUntil : UInt32
  signature : PermitSignature
  deriving DecidableEq

/-- An account to use as the identity of a node. -/
structure IdentityAssignment where
  account : AccountId
  permit : Option IdentityPermit
  deriving DecidableEq

/-- Assign an account without a permit. -/
def IdentityAssignment.new (account : AccountId) : IdentityAssignment := ⟨account, none⟩

/-- Assign an account with the permit it issued. -/
def IdentityAssignment.withPermit (account : AccountId) (permit : IdentityPermit) :
    IdentityAssignment := ⟨account, some permit⟩

/-- Runtime permit carrying a signature. -/
def IdentityPermitPayload.intoPermit (payload : IdentityPermitPayload)
    (signature : PermitSignature) : IdentityPermit := ⟨payload.validUntil, signature⟩

/-- Runtime assignment of the identity with its permit. -/
def PermitArtifact.intoAssignment (artifact : PermitArtifact) : IdentityAssignment :=
  .withPermit artifact.identity (artifact.payload.intoPermit artifact.signature)

/-- Parse a permit artifact from what a file or standard input holds. -/
def loadPermit (crates : PermitCrates) (source : Except String Bytes) :
    Except String PermitArtifact :=
  source >>= fun bytes =>
    match Utf8.decode bytes with
    | none => .error "permit is not valid UTF-8"
    | some text => anyhow (PermitArtifact.fromJson crates text)

section

variable (verifiers : Verifiers) (crates : PermitCrates) (ss58 : Ss58)
  (genesisHash : FixedBytes 32) (finalized : Except Error Head)

/-- Reject a permit that cannot work for a node in the scope of `scopeNode`. -/
def checkPermit (artifact : PermitArtifact) (scopeNode : UInt64) : Except String Unit :=
  if artifact.verify verifiers = false then
    .error ("permit signature is not valid for identity " ++ ss58.toText artifact.identity)
  else if artifact.payload.genesisHash ≠ genesisHash then
    .error "permit was issued for a different chain (genesis hash mismatch)"
  else
    anyhow finalized >>= fun head =>
      anyhow (head.scopeOf scopeNode) >>= fun scope =>
        if artifact.payload.scope ≠ scope then
          .error ("permit was issued for scope " ++ toString artifact.payload.scope.toNat ++
            ", but node " ++ toString scopeNode.toNat ++ " is in scope " ++ toString scope.toNat)
        else if artifact.payload.validUntil < head.blockNumber then
          .error ("permit expired at block " ++ toString artifact.payload.validUntil.toNat ++
            " (current block " ++ toString head.blockNumber.toNat ++ ")")
        else .ok ()

/-- Identity assignment from an optional account and permit, for the scope of a node. -/
def assignment (identity : Option AccountId) (source : Option (Except String Bytes))
    (scopeNode : Option UInt64) : Except String (Option IdentityAssignment) :=
  match source, identity with
  | some source, identity =>
    loadPermit crates source >>= fun artifact =>
      if identity.any (· ≠ artifact.identity) then
        .error "--identity differs from the identity in the permit"
      else
        match scopeNode with
        | none => .error "a permit can only be used for a node below a parent"
        | some scopeNode =>
          checkPermit verifiers ss58 genesisHash finalized artifact scopeNode >>= fun _ =>
            .ok (some artifact.intoAssignment)
  | none, some account => .ok (some (.new account))
  | none, none => .ok none

/-- `identity set`, up to the transaction: the node, and what it is assigned.  It is a panic if
that is nothing.  The node is resolved at the block that was latest before. -/
def setIdentity (canonical : Except Error Head) (target : Target) (account : Option AccountId)
    (source : Option (Except String Bytes)) :
    Except String (UInt64 × Option IdentityAssignment) :=
  anyhow (canonical >>= fun head => target.nodeId ss58 head.block) >>= fun node =>
    assignment verifiers crates ss58 genesisHash finalized account source (some node) >>= fun a =>
      .ok (node, a)

/-- `create`, up to the transaction: the parent, and the identity of the new node. -/
def createIdentity (canonical : Except Error Head) (parent : Option Target)
    (identity : Option AccountId) (source : Option (Except String Bytes)) :
    Except String (Option UInt64 × Option IdentityAssignment) :=
  (parent.elim (.ok none) fun target =>
    anyhow (canonical >>= fun head => target.nodeId ss58 head.block) >>= fun node =>
      .ok (some node)) >>= fun parent =>
    if parent.isNone ∧ source.isSome then
      .error "a permit needs --parent: a root node can only get the signer as identity"
    else
      assignment verifiers crates ss58 genesisHash finalized identity source parent >>= fun a =>
        .ok (parent, a)

end

/-! ## What is accepted -/

section

variable {verifiers : Verifiers} {crates : PermitCrates} {reprint : String → Except String String}
  {ss58 : Ss58} {genesisHash : FixedBytes 32} {finalized : Except Error Head}

theorem bind_eq_ok_iff {ε α β : Type} {x : Except ε α} {f : α → Except ε β} {b : β} :
    x >>= f = .ok b ↔ ∃ a, x = .ok a ∧ f a = .ok b := by
  constructor
  · intro h
    cases x with
    | error e => exact absurd h (by simp [bind, Except.bind])
    | ok a => exact ⟨a, rfl, h⟩
  · rintro ⟨a, rfl, h⟩
    exact h

@[simp] theorem anyhow_eq_ok_iff {α : Type} {r : Except Error α} {a : α} :
    anyhow r = .ok a ↔ r = .ok a := by
  cases r with
  | error e => exact iff_of_false (by simp [anyhow, Except.mapError]) (by simp)
  | ok b => simp [anyhow, Except.mapError]

/-- A check passes if the artifact is signed for this chain and the scope of the node, and is not
over. -/
theorem checkPermit_eq_ok_iff {artifact : PermitArtifact} {node : UInt64} {u : Unit} :
    checkPermit verifiers ss58 genesisHash finalized artifact node = .ok u ↔
      artifact.verify verifiers = true ∧ artifact.payload.genesisHash = genesisHash ∧
        ∃ head, finalized = .ok head ∧ head.scopeOf node = .ok artifact.payload.scope ∧
          head.blockNumber ≤ artifact.payload.validUntil := by
  unfold checkPermit
  split_ifs with hverify hgenesis
  · exact iff_of_false (by simp) (by simp [hverify])
  · exact iff_of_false (by simp) fun h => hgenesis h.2.1
  · rw [Bool.not_eq_false] at hverify
    simp only [bind_eq_ok_iff, anyhow_eq_ok_iff, hverify, not_not.mp hgenesis, true_and]
    constructor
    · rintro ⟨head, hhead, scope, hscope, h⟩
      split_ifs at h with hne hover
      rw [not_not.mp hne]
      exact ⟨head, hhead, hscope, UInt32.not_lt.mp hover⟩
    · rintro ⟨head, hhead, hscope, hvalid⟩
      refine ⟨head, hhead, _, hscope, ?_⟩
      rw [if_neg (not_not.mpr rfl), if_neg (UInt32.not_lt.mpr hvalid)]

/-- A permit is assigned if it is read, agrees with the account that is named, and passes. -/
theorem assignment_of_source {identity : Option AccountId} {source : Except String Bytes}
    {scopeNode : Option UInt64} {r : Option IdentityAssignment} :
    assignment verifiers crates ss58 genesisHash finalized identity (some source) scopeNode =
        .ok r ↔
      ∃ artifact node, loadPermit crates source = .ok artifact ∧ scopeNode = some node ∧
        (∀ account ∈ identity, account = artifact.identity) ∧
        checkPermit verifiers ss58 genesisHash finalized artifact node = .ok () ∧
        r = some artifact.intoAssignment := by
  rw [assignment, bind_eq_ok_iff]
  refine exists_congr fun artifact => ?_
  have hany : identity.any (· ≠ artifact.identity) = true ↔
      ¬ ∀ account ∈ identity, account = artifact.identity := by
    cases identity <;> simp
  constructor
  · rintro ⟨hload, h⟩
    split_ifs at h with hdiffers
    cases scopeNode with
    | none => exact absurd h (by simp)
    | some node =>
      obtain ⟨u, hcheck, hr⟩ := bind_eq_ok_iff.mp h
      exact ⟨node, hload, rfl, not_not.mp (mt hany.mpr hdiffers), hcheck,
        (Except.ok.inj hr).symm⟩
  · rintro ⟨node, hload, rfl, hagrees, hcheck, rfl⟩
    refine ⟨hload, ?_⟩
    rw [if_neg fun h => hany.mp h hagrees]
    exact bind_eq_ok_iff.mpr ⟨(), hcheck, rfl⟩

variable (verifiers genesisHash) in
/-- The account has signed that it may be used for the scope of the node at this block. -/
def Consents (head : Head) (node : UInt64) (account : AccountId) (granted : IdentityPermit) :
    Prop :=
  ∃ scope, head.scopeOf node = .ok scope ∧ head.blockNumber ≤ granted.validUntil ∧
    verifiers.accepts granted.signature account
      (IdentityPermitPayload.signingBytes ⟨genesisHash, scope, granted.validUntil⟩) = true

variable (verifiers genesisHash finalized) in
/-- What is assigned was named, without a permit; or its account consents. -/
def Assigned (identity : Option AccountId) (source : Option (Except String Bytes))
    (scopeNode : Option UInt64) (a : IdentityAssignment) : Prop :=
  (source = none ∧ identity = some a.account ∧ a.permit = none) ∨
    ∃ head node granted, finalized = .ok head ∧ scopeNode = some node ∧
      a.permit = some granted ∧ Consents verifiers genesisHash head node a.account granted ∧
      ∀ account ∈ identity, account = a.account

theorem assigned_of_assignment {identity : Option AccountId}
    {source : Option (Except String Bytes)} {scopeNode : Option UInt64} {a : IdentityAssignment}
    (h : assignment verifiers crates ss58 genesisHash finalized identity source scopeNode =
      .ok (some a)) : Assigned verifiers genesisHash finalized identity source scopeNode a := by
  cases source with
  | none =>
    cases identity with
    | none => exact absurd h (by simp [assignment])
    | some account =>
      obtain rfl := Option.some.inj (Except.ok.inj h)
      exact .inl ⟨rfl, rfl, rfl⟩
  | some source =>
    obtain ⟨artifact, node, -, rfl, hagrees, hcheck, hr⟩ := assignment_of_source.mp h
    obtain rfl := Option.some.inj hr
    obtain ⟨hverify, rfl, head, hhead, hscope, hvalid⟩ := checkPermit_eq_ok_iff.mp hcheck
    exact .inr ⟨head, node, _, hhead, rfl, rfl, ⟨_, hscope, hvalid, hverify⟩, hagrees⟩

/-! ## What is issued -/

variable (ss58 genesisHash) in
/-- The payload is for the scope of the target at the block that was read, and for blocks from the
latest one on, as many as the runtime allows. -/
def Issues (reader finalized : Except Error Head) (target : Target)
    (payload : IdentityPermitPayload) : Prop :=
  payload.genesisHash = genesisHash ∧
    (∃ head node, reader = .ok head ∧ target.nodeId ss58 head.block = .ok node ∧
      head.scopeOf node = .ok payload.scope) ∧
    ∃ latest maxTtl, finalized = .ok latest ∧ latest.maxIdentityPermitTtl = .ok maxTtl ∧
      latest.blockNumber ≤ payload.validUntil ∧
      payload.validUntil.toNat ≤ latest.blockNumber.toNat + maxTtl.toNat

theorem runtime_eq_ok_iff {α : Type} {r : Except String α} {a : α} :
    runtime r = .ok a ↔ r = .ok a := by
  cases r <;> simp [runtime]

theorem of_identityPermitPayload {scope : UInt64} {validUntil : UInt32}
    {payload : IdentityPermitPayload}
    (h : identityPermitPayload genesisHash finalized scope validUntil = .ok payload) :
    payload = ⟨genesisHash, scope, validUntil⟩ ∧
      ∃ latest maxTtl, finalized = .ok latest ∧ latest.maxIdentityPermitTtl = .ok maxTtl ∧
        latest.blockNumber ≤ validUntil ∧
        validUntil.toNat ≤ latest.blockNumber.toNat + maxTtl.toNat := by
  obtain ⟨latest, hlatest, h⟩ := bind_eq_ok_iff.mp h
  obtain ⟨maxTtl, hmax, h⟩ := bind_eq_ok_iff.mp h
  dsimp only at h
  split_ifs at h with hpast hfar
  exact ⟨(Except.ok.inj h).symm, latest, maxTtl, hlatest, runtime_eq_ok_iff.mp hmax,
    UInt32.not_lt.mp hpast, Nat.le_of_not_lt hfar⟩

theorem issues_of_permitPayload {reader : Except Error Head} {args : PermitArgs}
    {payload : IdentityPermitPayload}
    (h : permitPayload ss58 genesisHash reader finalized args = .ok payload) :
    Issues ss58 genesisHash reader finalized args.target payload := by
  simp only [permitPayload, bind_eq_ok_iff, anyhow_eq_ok_iff] at h
  obtain ⟨head, hhead, node, hnode, scope, hscope, maxTtl, -, validUntil, -, hpayload⟩ := h
  obtain ⟨rfl, hlatest⟩ := of_identityPermitPayload hpayload
  exact ⟨rfl, ⟨head, node, hhead, hnode, hscope⟩, hlatest⟩

theorem toNat_min (a b : UInt32) : (min a b).toNat = min a.toNat b.toNat := by
  show (if a ≤ b then a else b).toNat = _
  split_ifs with h
  · exact (Nat.min_eq_left (UInt32.le_iff_toNat_le.mp h)).symm
  · exact (Nat.min_eq_right (Nat.le_of_not_le (mt UInt32.le_iff_toNat_le.mpr h))).symm

/-- A permit without further arguments is valid for the default number of blocks, or as many as
the runtime allows. -/
theorem validUntil_of_permitPayload {reader : Except Error Head} {target : Target}
    {payload : IdentityPermitPayload}
    (h : permitPayload ss58 genesisHash reader finalized ⟨target, none, none⟩ = .ok payload) :
    ∃ head maxTtl, reader = .ok head ∧ head.maxIdentityPermitTtl = .ok maxTtl ∧
      payload.validUntil.toNat = head.blockNumber.toNat + min 600 maxTtl.toNat := by
  simp only [permitPayload, bind_eq_ok_iff, anyhow_eq_ok_iff, runtime_eq_ok_iff] at h
  obtain ⟨head, hhead, _, _, _, _, maxTtl, hmax, validUntil, hlast, hpayload⟩ := h
  obtain ⟨rfl, -⟩ := of_identityPermitPayload hpayload
  refine ⟨head, maxTtl, hhead, hmax, ?_⟩
  simp only [PermitArgs.lastBlock, Option.getD_none] at hlast
  split_ifs at hlast with hfits
  obtain rfl := Except.ok.inj hlast
  rw [UInt32.toNat_add, Nat.mod_eq_of_lt hfits, toNat_min]
  rfl

/-! ## From one command to the other -/

/-- The crates read what they write of an artifact, also after it was printed once more. -/
structure Reprints (crates : PermitCrates) (reprint : String → Except String String)
    (artifact : PermitArtifact) : Prop where
  reads : crates.ReadsBack artifact
  reprint : ∀ text, reprint (artifact.toJson crates) = .ok text →
    crates.fromStr text = .ok (artifact.document crates)

theorem loadPermit_of_reprint {artifact : PermitArtifact} {text : String}
    (hreads : Reprints crates reprint artifact)
    (htext : reprint (artifact.toJson crates) = .ok text) :
    loadPermit crates (.ok (Utf8.encode text)) = .ok artifact := by
  refine bind_eq_ok_iff.mpr ⟨_, rfl, ?_⟩
  rw [Utf8.decode_encode]
  exact anyhow_eq_ok_iff.mpr ((PermitArtifact.fromJson_eq_ok_iff (hreads.reprint text htext)).mpr
    (PermitArtifact.tells_document hreads.reads))

/-- What was issued is assigned exactly where it applies. -/
theorem assignment_of_permit {key : IdentityKey} {genesisHash' : FixedBytes 32}
    {reader : Except Error Head} {args : PermitArgs} {payload : IdentityPermitPayload}
    {text : String} {later : Head} {identity : Option AccountId} {node : UInt64}
    {a : IdentityAssignment}
    (hkey : ∀ message, verifiers.accepts (key.sign message) key.accountId message = true)
    (hpayload : permitPayload ss58 genesisHash reader finalized args = .ok payload)
    (hreads : Reprints crates reprint (payload.sign key))
    (htext : permit crates reprint ss58 genesisHash reader finalized args key = .ok text) :
    assignment verifiers crates ss58 genesisHash' (.ok later) identity
        (some (.ok (Utf8.encode text))) (some node) = .ok (some a) ↔
      genesisHash' = genesisHash ∧ later.scopeOf node = .ok payload.scope ∧
        later.blockNumber ≤ payload.validUntil ∧
        (∀ account ∈ identity, account = key.accountId) ∧
        a = ⟨key.accountId, some ⟨payload.validUntil, key.sign payload.signingBytes⟩⟩ := by
  rw [permit, hpayload] at htext
  have hload := loadPermit_of_reprint hreads htext
  have hgenesis : payload.genesisHash = genesisHash := (issues_of_permitPayload hpayload).1
  rw [assignment_of_source]
  constructor
  · rintro ⟨artifact, node', hload', hnode, hagrees, hcheck, ha⟩
    obtain rfl := Except.ok.inj (hload.symm.trans hload')
    obtain rfl := Option.some.inj hnode
    obtain rfl := Option.some.inj ha
    obtain ⟨-, hgenesis', head, hhead, hscope, hvalid⟩ := checkPermit_eq_ok_iff.mp hcheck
    obtain rfl := Except.ok.inj hhead
    exact ⟨hgenesis'.symm.trans hgenesis, hscope, hvalid, hagrees, rfl⟩
  · rintro ⟨rfl, hscope, hvalid, hagrees, rfl⟩
    exact ⟨_, node, hload, rfl, hagrees, checkPermit_eq_ok_iff.mpr
      ⟨hkey _, hgenesis, later, rfl, hscope, hvalid⟩, rfl⟩

variable (verifiers crates reprint ss58 genesisHash) in
/-- What permits come to between the command that issues them and those that use them. -/
structure PermitsGrant : Prop where
  issued : ∀ reader finalized args payload,
    permitPayload ss58 genesisHash reader finalized args = .ok payload →
    Issues ss58 genesisHash reader finalized args.target payload
  default : ∀ reader finalized target payload,
    permitPayload ss58 genesisHash reader finalized ⟨target, none, none⟩ = .ok payload →
    ∃ head maxTtl, reader = .ok head ∧ head.maxIdentityPermitTtl = .ok maxTtl ∧
      payload.validUntil.toNat = head.blockNumber.toNat + min 600 maxTtl.toNat
  /-- A permit is assigned on its chain, for nodes of its scope, up to its last block, to the
  account that signed it, and nowhere else. -/
  carried : ∀ key : IdentityKey,
    (∀ message, verifiers.accepts (key.sign message) key.accountId message = true) →
    ∀ reader finalized args payload text,
      permitPayload ss58 genesisHash reader finalized args = .ok payload →
      Reprints crates reprint (payload.sign key) →
      permit crates reprint ss58 genesisHash reader finalized args key = .ok text →
      ∀ genesisHash' later identity node a,
        assignment verifiers crates ss58 genesisHash' (.ok later) identity
            (some (.ok (Utf8.encode text))) (some node) = .ok (some a) ↔
          genesisHash' = genesisHash ∧ later.scopeOf node = .ok payload.scope ∧
            later.blockNumber ≤ payload.validUntil ∧
            (∀ account ∈ identity, account = key.accountId) ∧
            a = ⟨key.accountId, some ⟨payload.validUntil, key.sign payload.signingBytes⟩⟩
  /-- `identity set` assigns to the node of its target what was named or is consented to. -/
  set : ∀ canonical finalized target account source node r,
    setIdentity verifiers crates ss58 genesisHash finalized canonical target account source =
      .ok (node, r) →
    (∃ head, canonical = .ok head ∧ target.nodeId ss58 head.block = .ok node) ∧
      (account.isSome ∨ source.isSome → ∃ a, r = some a) ∧
      ∀ a, r = some a → Assigned verifiers genesisHash finalized account source (some node) a
  /-- So does `create` for a child of its parent, and a root gets no permit. -/
  create : ∀ canonical finalized parent identity source node a,
    createIdentity verifiers crates ss58 genesisHash finalized canonical parent identity source =
      .ok (node, some a) →
    Assigned verifiers genesisHash finalized identity source node a ∧
      (parent = none → source = none ∧ a.permit = none) ∧
      ∀ target, parent = some target → ∃ head id, node = some id ∧ canonical = .ok head ∧
        target.nodeId ss58 head.block = .ok id

theorem isSome_of_assignment {account : Option AccountId} {source : Option (Except String Bytes)}
    {scopeNode : Option UInt64} {r : Option IdentityAssignment}
    (h : assignment verifiers crates ss58 genesisHash finalized account source scopeNode = .ok r)
    (hsome : account.isSome ∨ source.isSome) : ∃ a, r = some a := by
  cases source with
  | some source =>
    obtain ⟨artifact, -, -, -, -, -, hr⟩ := assignment_of_source.mp h
    exact ⟨_, hr⟩
  | none =>
    cases account with
    | some account => exact ⟨_, (Except.ok.inj h).symm⟩
    | none => exact absurd hsome (by simp)

end

/-- **Permits grant what was signed.**  A permit that is issued is for the scope of its target
and expires as was asked, or by default; carried as an artifact to any block it is assigned on
its chain, for the nodes of its scope, up to its last block and to the account that signed it,
and nowhere else.  What `identity set` and `create` submit is for the node of their target, and
for an account that was named or has consented; a root gets no permit. -/
theorem permits_grant (verifiers : Verifiers) (crates : PermitCrates)
    (reprint : String → Except String String) (ss58 : Ss58) (genesisHash : FixedBytes 32) :
    PermitsGrant verifiers crates reprint ss58 genesisHash where
  issued _ _ _ _ := issues_of_permitPayload
  default _ _ _ _ := validUntil_of_permitPayload
  carried _ hkey _ _ _ _ _ hpayload hreads htext _ _ _ _ _ :=
    assignment_of_permit hkey hpayload hreads htext
  set canonical finalized target account source node r h := by
    simp only [setIdentity, bind_eq_ok_iff, anyhow_eq_ok_iff] at h
    obtain ⟨id, ⟨head, hhead, hid⟩, r', hassigned, heq⟩ := h
    obtain ⟨rfl, rfl⟩ := Prod.mk.inj (Except.ok.inj heq)
    refine ⟨⟨head, hhead, hid⟩, isSome_of_assignment hassigned, ?_⟩
    rintro a rfl
    exact assigned_of_assignment hassigned
  create canonical finalized parent identity source node a h := by
    obtain ⟨found, hfound, h⟩ := bind_eq_ok_iff.mp h
    split_ifs at h with hroot
    obtain ⟨r, hassigned, heq⟩ := bind_eq_ok_iff.mp h
    obtain ⟨rfl, rfl⟩ := Prod.mk.inj (Except.ok.inj heq)
    refine ⟨assigned_of_assignment hassigned, ?_, ?_⟩
    · rintro rfl
      obtain rfl := Except.ok.inj hfound
      rcases assigned_of_assignment hassigned with ⟨hsource, -, hpermit⟩ | ⟨_, _, _, -, hnode, -⟩
      · exact ⟨hsource, hpermit⟩
      · exact absurd hnode (by simp)
    · rintro target rfl
      simp only [Option.elim_some, bind_eq_ok_iff, anyhow_eq_ok_iff] at hfound
      obtain ⟨id, ⟨head, hhead, hid⟩, hsome⟩ := hfound
      exact ⟨head, id, (Except.ok.inj hsome).symm, hhead, hid⟩

/-- A block at which every node is in scope 7. -/
def headAt (number : UInt64) : Head where
  block := ⟨fun _ => .ok (some ⟨none, some 7⟩), fun _ => .ok none, fun _ => .ok none,
    fun _ => .ok (.error .identityNotFound), fun _ => .ok (.error .identityNotFound)⟩
  number
  resolveScope _ := .ok (.ok 7)
  maxIdentityPermitTtl := .ok 600

/-- What Alice signs for the permit of scope 7, and nothing for anything else. -/
def aliceSign (message : Bytes) : FixedBytes 64 :=
  if message = scopeSeven.payload.signingBytes then aliceSignature else FixedBytes.replicate 64 0

def aliceKey : IdentityKey := ⟨aliceIdentity, fun message => .ed25519 (aliceSign message)⟩

/-- Verifiers that know what Alice signs. -/
def aliceVerifiers : Verifiers where
  sr25519 _ _ _ := false
  ed25519 signature message account := account = aliceIdentity ∧ signature = aliceSign message
  recover _ _ := none
  blake2 _ := FixedBytes.replicate 32 0

theorem sign_scopeSeven : scopeSeven.payload.sign aliceKey = scopeSeven := by
  have hsign : aliceSign scopeSeven.payload.signingBytes = aliceSignature := if_pos rfl
  simp only [IdentityPermitPayload.sign, aliceKey, hsign]
  rfl

/-- The addresses of a permit's crates. -/
def permitSs58 : Ss58 := ⟨scopeSevenCrates.accountToText, scopeSevenCrates.accountFromText⟩

/-- The permit for scope 7 is good for its last block, and not for the next one. -/
theorem permits_grant_scopeSeven :
    assignment aliceVerifiers scopeSevenCrates permitSs58 (FixedBytes.replicate 32 0xAB)
        (.ok (headAt 1000)) none
        (some (.ok (Utf8.encode (scopeSeven.toJson scopeSevenCrates)))) (some 5) =
      .ok (some scopeSeven.intoAssignment) ∧
    ∀ a, assignment aliceVerifiers scopeSevenCrates permitSs58 (FixedBytes.replicate 32 0xAB)
        (.ok (headAt 1001)) none
        (some (.ok (Utf8.encode (scopeSeven.toJson scopeSevenCrates)))) (some 5) ≠
      .ok (some a) := by
  have hgrant := permits_grant aliceVerifiers scopeSevenCrates .ok permitSs58
    (FixedBytes.replicate 32 0xAB)
  have hreads : Reprints scopeSevenCrates .ok (scopeSeven.payload.sign aliceKey) := by
    rw [sign_scopeSeven]
    refine ⟨scopeSevenCrates_reads, fun text htext => ?_⟩
    obtain rfl := Except.ok.inj htext
    exact scopeSevenCrates_reads.document
  have haccepts : ∀ message,
      aliceVerifiers.accepts (aliceKey.sign message) aliceKey.accountId message = true :=
    fun message => decide_eq_true ⟨rfl, rfl⟩
  have hpayload : permitPayload permitSs58 (FixedBytes.replicate 32 0xAB) (.ok (headAt 900))
      (.ok (headAt 900)) ⟨.node 1, none, some 1000⟩ = .ok scopeSeven.payload := rfl
  have htext : permit scopeSevenCrates .ok permitSs58 (FixedBytes.replicate 32 0xAB)
      (.ok (headAt 900)) (.ok (headAt 900)) ⟨.node 1, none, some 1000⟩ aliceKey =
        .ok (scopeSeven.toJson scopeSevenCrates) := by
    rw [permit, hpayload]
    exact congrArg (fun artifact => Except.ok (artifact.toJson scopeSevenCrates)) sign_scopeSeven
  have hcarried := hgrant.carried aliceKey haccepts _ _ _ _ _ hpayload hreads htext
    (FixedBytes.replicate 32 0xAB)
  have hassigned : scopeSeven.intoAssignment = ⟨aliceKey.accountId,
      some ⟨scopeSeven.payload.validUntil, aliceKey.sign scopeSeven.payload.signingBytes⟩⟩ := by
    rw [← sign_scopeSeven]
    rfl
  refine ⟨(hcarried (headAt 1000) none 5 _).mpr ⟨rfl, rfl, by decide, by simp, hassigned⟩,
    fun a h => ?_⟩
  exact absurd ((hcarried (headAt 1001) none 5 a).mp h).2.2.1 (by decide)

end Cps
end Robins
