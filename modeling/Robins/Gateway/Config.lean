import Robins.Auth.Cps
import Robins.Batcher.Config
import Robins.Meshtastic.Session
import Robins.Protocol.Keys

/-!
# Gateway configuration

The sections of the configuration file that are validated, or from which the gateway takes its
times, and the checks on them in the order in which they are made.  The first that fails is
reported, with a text that says which field is wrong and how.  Times are whole seconds, and no
check bounds them from above.

A configuration that passes its checks is `Config.Valid`, and everything that is proved of a
running gateway starts from one.  What other modules need of it is said at the end: the batcher's
own checks are among them, and a policy can be made from a section that passes.
-/

namespace Robins
namespace Gateway

open Protocol

/-! ## Sections -/

/-- Authentication mode applied after protocol validation. -/
inductive AuthMode where
  | none
  | whitelist
  | cps
  deriving DecidableEq, Repr

/-- The `[auth]` section. -/
structure AuthConfig where
  mode : AuthMode
  file : Option String
  cpsRootNodeId : Option Auth.NodeId
  cpsExpectedGenesisHash : Option String
  cpsCacheCapacity : ℕ
  cpsNegativeTtlSecs : ℕ
  cpsQueryTimeoutSecs : ℕ
  cpsMaxConcurrentLookups : ℕ
  cpsMaxPending : ℕ
  deriving DecidableEq, Repr

def AuthConfig.default : AuthConfig where
  mode := .none
  file := none
  cpsRootNodeId := none
  cpsExpectedGenesisHash := none
  cpsCacheCapacity := 8192
  cpsNegativeTtlSecs := 60
  cpsQueryTimeoutSecs := 10
  cpsMaxConcurrentLookups := 8
  cpsMaxPending := 256

/-- The `[meshtastic]` section: what a session reads, and what the connection is made with. -/
structure MeshtasticConfig extends Meshtastic.MeshtasticConfig where
  enabled : Bool
  transport : Option String
  device : Option String
  reconnectMinSecs : ℕ
  reconnectMaxSecs : ℕ
  deriving DecidableEq, Repr

def MeshtasticConfig.default : MeshtasticConfig where
  enabled := false
  transport := some "serial"
  device := some "/dev/ttyACM0"
  portNum := 256
  maxReassembledBytes := 4096
  maxFragments := 16
  maxPending := 128
  maxPendingPerSender := 8
  reassemblyTimeoutSecs := 60
  reassemblyAbsoluteTimeoutSecs := 300
  reconnectMinSecs := 1
  reconnectMaxSecs := 30

/-- The `[ipfs]` section. -/
structure IpfsConfig where
  enabled : Bool
  providers : List String
  durability : Option String
  deriving DecidableEq, Repr

def IpfsConfig.default : IpfsConfig := ⟨false, [], none⟩

/-- The `[blockchain]` section. -/
structure BlockchainConfig where
  enabled : Bool
  endpoint : Option String
  keyFile : Option String
  nodeId : Option Auth.NodeId
  retryMinSecs : ℕ
  retryMaxSecs : ℕ
  deriving DecidableEq, Repr

def BlockchainConfig.default : BlockchainConfig := ⟨false, none, none, none, 1, 60⟩

/-- What of the `[pipeline]` section the duplicate cache is made with. -/
structure PipelineConfig where
  dedupCapacity : ℕ
  dedupTtlSecs : ℕ
  deriving DecidableEq, Repr

def PipelineConfig.default : PipelineConfig := ⟨8192, 300⟩

/-- The configuration, without the sections that are not checked. -/
structure Config where
  auth : AuthConfig
  meshtastic : MeshtasticConfig
  ipfs : IpfsConfig
  blockchain : BlockchainConfig
  batcher : Batcher.BatcherConfig
  storagePath : Option String
  pipeline : PipelineConfig
  deriving DecidableEq, Repr

def Config.default : Config where
  auth := .default
  meshtastic := .default
  ipfs := .default
  blockchain := .default
  batcher := .default
  storagePath := none
  pipeline := .default

/-! ## Checks -/

inductive ConfigError where
  | invalid (reason : String)
  deriving DecidableEq, Repr

/-- What texts are read and shown with. -/
structure TextCrates where
  /-- `hex::decode` -/
  hexDecode : String → Except String Bytes
  /-- `{:?}` of a string. -/
  debugText : String → String

/-- Refuse a configuration of which this holds. -/
def refuseIf (p : Prop) [Decidable p] (reason : String) : Except ConfigError Unit :=
  if p then .error (.invalid reason) else .ok ()

@[simp] theorem refuseIf_eq_ok_iff {p : Prop} [Decidable p] {reason : String} {u : Unit} :
    refuseIf p reason = .ok u ↔ ¬ p := by
  unfold refuseIf
  split <;> simp_all

section

variable (crates : TextCrates)

def AuthConfig.expectedGenesisHash (auth : AuthConfig) : Except String (FixedBytes 32) :=
  match auth.cpsExpectedGenesisHash with
  | none => .error "auth.cps_expected_genesis_hash is required"
  | some raw =>
    match stripPrefix "0x" raw with
    | none => .error "auth.cps_expected_genesis_hash must start with \"0x\""
    | some digits =>
      match crates.hexDecode digits with
      | .error reason =>
        .error ("auth.cps_expected_genesis_hash is not valid hex: " ++ reason)
      | .ok bytes =>
        if h : bytes.length = 32 then .ok ⟨bytes, h⟩
        else .error "auth.cps_expected_genesis_hash must be 32 bytes"

def AuthConfig.checkGenesisHash (auth : AuthConfig) : Except ConfigError Unit :=
  match auth.expectedGenesisHash crates with
  | .error reason => .error (.invalid reason)
  | .ok _ => .ok ()

/-- The settings of an authorization by CPS. -/
def AuthConfig.validateCps (auth : AuthConfig) : Except ConfigError Unit := do
  refuseIf (auth.cpsRootNodeId = none) "auth.mode = \"cps\" requires auth.cps_root_node_id"
  auth.checkGenesisHash crates
  refuseIf (auth.cpsCacheCapacity = 0) "auth.cps_cache_capacity must be greater than zero"
  refuseIf (auth.cpsNegativeTtlSecs = 0) "auth.cps_negative_ttl_secs must be greater than zero"
  refuseIf (auth.cpsQueryTimeoutSecs = 0)
    "auth.cps_query_timeout_secs must be greater than zero"
  refuseIf (auth.cpsMaxConcurrentLookups = 0)
    "auth.cps_max_concurrent_lookups must be greater than zero"
  refuseIf (auth.cpsMaxPending = 0) "auth.cps_max_pending must be greater than zero"

/-- The `[auth]` section. -/
def AuthConfig.validate (auth : AuthConfig) : Except ConfigError Unit := do
  refuseIf (auth.mode = .whitelist ∧ auth.file = none)
    "auth.mode = \"whitelist\" requires auth.file"
  if auth.mode = .cps then auth.validateCps crates else .ok ()

/-- The providers, one after another. -/
def checkProviders : List String → Except ConfigError Unit
  | [] => .ok ()
  | provider :: providers => do
    refuseIf (provider ≠ "pinata" ∧ provider ≠ "kubo")
      ("unknown ipfs provider " ++ crates.debugText provider ++
        " (expected \"pinata\" or \"kubo\")")
    checkProviders providers

/-- The `[ipfs]` section. -/
def IpfsConfig.validate (ipfs : IpfsConfig) : Except ConfigError Unit :=
  if ipfs.enabled then do
    refuseIf (ipfs.providers = [])
      "ipfs.enabled = true requires at least one entry in ipfs.providers"
    checkProviders crates ipfs.providers
    match ipfs.durability with
    | none => .ok ()
    | some policy =>
      refuseIf (policy ≠ "any" ∧ policy ≠ "all" ∧ policy ≠ "quorum")
        ("unknown ipfs.durability " ++ crates.debugText policy ++ " (expected any|all|quorum)")
  else .ok ()

def MeshtasticConfig.checkTransport (mesh : MeshtasticConfig) : Except ConfigError Unit :=
  match mesh.transport with
  | some "serial" => .ok ()
  | some other =>
    .error (.invalid ("unknown meshtastic.transport " ++ crates.debugText other ++
      " (expected \"serial\")"))
  | none => .error (.invalid "meshtastic.enabled = true requires meshtastic.transport")

/-- The `[meshtastic]` section. -/
def MeshtasticConfig.validate (mesh : MeshtasticConfig) : Except ConfigError Unit :=
  if mesh.enabled then do
    mesh.checkTransport crates
    refuseIf (mesh.device = none) "meshtastic.enabled = true requires meshtastic.device"
    refuseIf (mesh.maxReassembledBytes = 0) "meshtastic.max_reassembled_bytes must be non-zero"
    refuseIf (mesh.maxFragments = 0 ∨ Meshtastic.maxFragmentCount < mesh.maxFragments)
      ("meshtastic.max_fragments must be in 1..=" ++ toString Meshtastic.maxFragmentCount ++
        " (Transport v1 wire limit)")
    refuseIf (mesh.maxPending = 0) "meshtastic.max_pending must be non-zero"
    refuseIf (mesh.maxPendingPerSender = 0) "meshtastic.max_pending_per_sender must be non-zero"
    refuseIf (mesh.reassemblyTimeoutSecs = 0)
      "meshtastic.reassembly_timeout_secs must be non-zero"
    refuseIf (mesh.reassemblyAbsoluteTimeoutSecs = 0)
      "meshtastic.reassembly_absolute_timeout_secs must be non-zero"
    refuseIf (mesh.reconnectMinSecs = 0) "meshtastic.reconnect_min_secs must be non-zero"
    refuseIf (mesh.reconnectMaxSecs < mesh.reconnectMinSecs)
      "meshtastic.reconnect_max_secs must be >= meshtastic.reconnect_min_secs"
  else .ok ()

/-- The `[batcher]` section. -/
def validateBatcher (batcher : Batcher.BatcherConfig) : Except ConfigError Unit :=
  match batcher.validate with
  | .error reason => .error (.invalid reason)
  | .ok () => .ok ()

/-- The endpoint of the chain. -/
def validateEndpoint (endpoint : Option String) : Except ConfigError Unit :=
  match endpoint with
  | none => .ok ()
  | some endpoint =>
    refuseIf (stripPrefix "ws://" endpoint = none ∧ stripPrefix "wss://" endpoint = none)
      "blockchain.endpoint must be a ws:// or wss:// URL"

/-- What anchoring asks of the `[blockchain]` section and of the storage. -/
def BlockchainConfig.validate (blockchain : BlockchainConfig) (storagePath : Option String) :
    Except ConfigError Unit :=
  if blockchain.enabled then do
    refuseIf (blockchain.keyFile = none) "blockchain.enabled = true requires blockchain.key_file"
    refuseIf (blockchain.nodeId = none) "blockchain.enabled = true requires blockchain.node_id"
    refuseIf (storagePath = none)
      "blockchain.enabled = true requires storage.path (durable batching)"
    refuseIf (blockchain.retryMinSecs = 0 ∨ blockchain.retryMaxSecs < blockchain.retryMinSecs)
      "blockchain.retry_min_secs must be non-zero and <= blockchain.retry_max_secs"
  else .ok ()

/-- The checks on a configuration, with the text of the first that fails. -/
def Config.validate (config : Config) : Except ConfigError Unit := do
  validateEndpoint config.blockchain.endpoint
  config.auth.validate crates
  config.ipfs.validate crates
  config.meshtastic.validate crates
  validateBatcher config.batcher
  config.blockchain.validate config.storagePath

/-- A configuration that passes its checks. -/
def Config.Valid (config : Config) : Prop := config.validate crates = .ok ()

instance (config : Config) : Decidable (config.Valid crates) :=
  inferInstanceAs (Decidable (_ = _))

/-- `CpsAuth::from_config`, apart from the reader. -/
def AuthConfig.cpsAuth (auth : AuthConfig) : Except String Auth.CpsAuth :=
  match auth.cpsRootNodeId with
  | none => .error "auth.mode = \"cps\" requires auth.cps_root_node_id"
  | some root =>
    match auth.expectedGenesisHash crates with
    | .error reason => .error reason
    | .ok _ =>
      if h : 0 < auth.cpsCacheCapacity then
        .ok ⟨root, Duration.ofSecs auth.cpsNegativeTtlSecs, auth.cpsCacheCapacity, h⟩
      else .error "auth.cps_cache_capacity must be greater than zero"

end

/-! ## What the checks promise -/

variable {crates : TextCrates} {config : Config}

/-- One check after another. -/
@[simp] theorem bind_eq_ok_iff {x y : Except ConfigError Unit} {u : Unit} :
    (x >>= fun _ => y) = .ok u ↔ x = .ok () ∧ y = .ok u := by
  cases x with
  | error error => simp [bind, Except.bind]
  | ok u => simp [bind, Except.bind]

theorem Config.valid_iff : config.Valid crates ↔
    validateEndpoint config.blockchain.endpoint = .ok () ∧ config.auth.validate crates = .ok () ∧
    config.ipfs.validate crates = .ok () ∧ config.meshtastic.validate crates = .ok () ∧
    validateBatcher config.batcher = .ok () ∧
    config.blockchain.validate config.storagePath = .ok () := by
  simp [Config.Valid, Config.validate]

/-- The batcher's own checks are among them. -/
theorem Config.Valid.batcher (h : config.Valid crates) : config.batcher.Valid := by
  have hbatcher := (Config.valid_iff.mp h).2.2.2.2.1
  unfold validateBatcher at hbatcher
  split at hbatcher
  · cases hbatcher
  · next hok => exact hok

/-- A policy can be made from a section that passes. -/
theorem Config.Valid.exists_cpsAuth (h : config.Valid crates) (hmode : config.auth.mode = .cps) :
    ∃ auth, config.auth.cpsAuth crates = .ok auth ∧
      auth.negativeTtl = Duration.ofSecs config.auth.cpsNegativeTtlSecs := by
  have hauth := (Config.valid_iff.mp h).2.1
  simp only [AuthConfig.validate, bind_eq_ok_iff, if_pos hmode, AuthConfig.validateCps,
    refuseIf_eq_ok_iff] at hauth
  obtain ⟨-, hroot, hhash, hcapacity, -⟩ := hauth
  obtain ⟨root, hroot⟩ := Option.ne_none_iff_exists'.mp hroot
  have hpos : 0 < config.auth.cpsCacheCapacity := Nat.pos_of_ne_zero hcapacity
  unfold AuthConfig.checkGenesisHash at hhash
  cases hgenesis : config.auth.expectedGenesisHash crates with
  | error reason => simp [hgenesis] at hhash
  | ok bytes =>
    refine ⟨⟨root, Duration.ofSecs config.auth.cpsNegativeTtlSecs, config.auth.cpsCacheCapacity,
      hpos⟩, ?_, rfl⟩
    simp only [AuthConfig.cpsAuth, hroot, hgenesis, dif_pos hpos]

theorem Config.default_valid : Config.default.Valid crates := rfl

end Gateway
end Robins
