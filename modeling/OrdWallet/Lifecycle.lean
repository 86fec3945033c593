import OrdWallet.Basic

/-!
# The configuration and the canister's lifecycle

`state/config.rs` keeps a `Config` in a stable cell; its getters trap on a field still `None`.
`init` writes the network and the key name and sets a timer that spawns `lazy_ecdsa_setup`,
which writes the public key. `init_stable_config` builds the cell with `StableCell::new`, which
overwrites the stored configuration with its default, and the hooks of an upgrade are empty: an
upgrade erases the configuration, and nothing writes it again before a reinstall.
-/

namespace OrdWallet

/-- `BitcoinNetwork` of the management canister's Bitcoin interface. -/
inductive BitcoinNetwork
  | mainnet
  | testnet
  | regtest
  deriving DecidableEq, Repr

/-- `EcdsaPublicKeyResponse`: the public key and its chain code. -/
structure EcdsaPublicKey where
  publicKey : List UInt8
  chainCode : List UInt8
  deriving DecidableEq, Repr

/-- `EcdsaKeyId`, by its name; its curve is always `Secp256k1`. -/
structure EcdsaKeyId where
  name : String
  deriving DecidableEq, Repr

/-- `Config`; `none` is a field not yet written. -/
structure Config where
  bitcoinNetwork? : Option BitcoinNetwork
  keyname? : Option String
  ecdsaPublicKey? : Option EcdsaPublicKey
  deriving DecidableEq, Repr

/-- `Config::default()`, the value a new stable cell starts from. -/
def Config.default : Config := ⟨none, none, none⟩

/-- `init_stable_config`: `StableCell::new(memory, Config::default())` writes the default over
whatever the memory held. The thread-local that holds the cell is built by it on its first access
in a new heap, after an install and after every upgrade. -/
def initStableConfig (_stored : Config) : Config := Config.default

/-- The message of every getter's trap. -/
def configUninitialized : String := "canister's config uninitialized"

namespace Config

/-- A getter: the field's value, or `ic_cdk::trap("canister's config uninitialized")`. -/
def get {α : Type} (field : Config → Option α) (config : Config) : Except String α :=
  match field config with
  | some v => .ok v
  | none => .error configUninitialized

/-- `Config::bitcoin_network`. -/
def bitcoinNetwork : Config → Except String BitcoinNetwork := get (·.bitcoinNetwork?)

/-- `Config::keyname`. -/
def keyname : Config → Except String String := get (·.keyname?)

/-- `Config::ecdsa_public_key`. -/
def ecdsaPublicKey : Config → Except String EcdsaPublicKey := get (·.ecdsaPublicKey?)

/-- `Config::ecdsakeyid`: the key named `keyname`. -/
def ecdsakeyid (config : Config) : Except String EcdsaKeyId :=
  config.keyname.map fun name => ⟨name⟩

variable {α : Type} {field : Config → Option α} {config : Config}

/-- A getter succeeds exactly on a written field, and traps with `configUninitialized`
otherwise. -/
theorem get_eq_ok {v : α} : config.get field = .ok v ↔ field config = some v := by
  unfold get
  split <;> simp_all

theorem get_of_none (h : field config = none) : config.get field = .error configUninitialized := by
  simp [get, h]

theorem ecdsakeyid_eq_ok {keyid : EcdsaKeyId} :
    config.ecdsakeyid = .ok keyid ↔ config.keyname? = some keyid.name := by
  unfold ecdsakeyid keyname get
  split <;> rename_i h <;> simp [Except.map, h]
  exact ⟨fun h => h ▸ rfl, fun h => h ▸ rfl⟩

end Config

/-- The key name `init` picks for the network. -/
def keyName : BitcoinNetwork → String
  | .mainnet => "key_1"
  | .testnet => "test_key_1"
  | .regtest => "dfx_test_key"

/-- `init`, on the config the stable cell holds: the network and its key name are written, the
key kept. The timer it sets is the lifecycle's. -/
def init (bitcoinNetwork : BitcoinNetwork) (config : Config) : Config :=
  { config with keyname? := some (keyName bitcoinNetwork), bitcoinNetwork? := some bitcoinNetwork }

/-- The message of the `expect` on the answer to `ecdsa_public_key`. -/
def failedToGetEcdsaKey : String := "Failed to get ecdsa key"

/-- `lazy_ecdsa_setup` up to its await: the key id of its call to `ecdsa_public_key`. -/
def lazyEcdsaSetup (config : Config) : Except String EcdsaKeyId := config.ecdsakeyid

/-- `lazy_ecdsa_setup` after its await, on the config as it is then: the answer is the key, or a
rejection (`none`) on which `expect` traps. -/
def lazyEcdsaSetupResume (response : Option EcdsaPublicKey) (config : Config) :
    Except String Config :=
  match response with
  | some key => .ok { config with ecdsaPublicKey? := some key }
  | none => .error failedToGetEcdsaKey

/-- `account_to_p2pkh_address`, the version byte by network and then the key. `encode` stands for
the derivation of the account's key, the hashes and the base58 encoding, which read nothing else
of the configuration. -/
def accountToP2pkhAddress (encode : UInt8 → EcdsaPublicKey → Account → String)
    (config : Config) (account : Account) : Except String String := do
  let network ← config.bitcoinNetwork
  let versionByte : UInt8 := match network with
    | .mainnet => 0x00
    | _ => 0x6f
  let key ← config.ecdsaPublicKey
  pure (encode versionByte key account)

/-- Without the key, every address derivation traps, whatever the network. -/
theorem accountToP2pkhAddress_of_none {encode : UInt8 → EcdsaPublicKey → Account → String}
    {config : Config} (h : config.ecdsaPublicKey? = none) (account : Account) :
    accountToP2pkhAddress encode config account = .error configUninitialized := by
  unfold accountToP2pkhAddress
  cases hn : config.bitcoinNetwork? with
  | none => rw [Config.bitcoinNetwork, Config.get_of_none hn]; rfl
  | some n =>
    rw [Config.bitcoinNetwork, Config.get_eq_ok.mpr hn, Config.ecdsaPublicKey, Config.get_of_none h]
    rfl

/-- Where the task `init` schedules stands. -/
inductive SetupTask
  /-- The timer has not fired. -/
  | timer
  /-- `lazy_ecdsa_setup` is suspended at its await, having asked for the key `keyid`. -/
  | awaiting (keyid : EcdsaKeyId)
  /-- No timer and no task: the task ended or trapped, or an upgrade dropped it. -/
  | idle
  deriving DecidableEq, Repr

/-- The configuration and the setup task. -/
structure Lifecycle where
  config : Config
  task : SetupTask
  deriving DecidableEq, Repr

/-- The events that touch the configuration. -/
inductive LifecycleEvent
  /-- `install_code` in install or reinstall mode: stable memory starts empty and `init` runs. -/
  | install (bitcoinNetwork : BitcoinNetwork)
  /-- The timer fires and `lazy_ecdsa_setup` runs to its await. -/
  | timerFires
  /-- The management canister answers `ecdsa_public_key`: the key, or `none` for a rejection. -/
  | answer (response : Option EcdsaPublicKey)
  /-- `install_code` in upgrade mode; `pre_upgrade` and `post_upgrade` do nothing. -/
  | upgrade
  deriving DecidableEq, Repr

/-- An install or a reinstall. -/
def LifecycleEvent.isInstall : LifecycleEvent → Bool
  | .install _ => true
  | _ => false

namespace Lifecycle

/-- One event. Both kinds of `install_code` start a new heap, where the timer and a suspended task
are lost and the configuration is read through a cell `init_stable_config` builds again. A trap of
the task ends it and keeps the configuration, as the task writes only after its await and a trap
rolls back to that await. -/
def step (s : Lifecycle) : LifecycleEvent → Lifecycle
  | .install bitcoinNetwork => ⟨init bitcoinNetwork (initStableConfig s.config), .timer⟩
  | .timerFires =>
    match s.task with
    | .timer =>
      match lazyEcdsaSetup s.config with
      | .ok keyid => ⟨s.config, .awaiting keyid⟩
      | .error _ => ⟨s.config, .idle⟩
    | _ => s
  | .answer response =>
    match s.task with
    | .awaiting _ =>
      match lazyEcdsaSetupResume response s.config with
      | .ok config => ⟨config, .idle⟩
      | .error _ => ⟨s.config, .idle⟩
    | _ => s
  | .upgrade => ⟨initStableConfig s.config, .idle⟩

/-- Events applied in order. -/
def run (s : Lifecycle) (es : List LifecycleEvent) : Lifecycle := es.foldl step s

@[simp] theorem run_nil (s : Lifecycle) : s.run [] = s := rfl

@[simp] theorem run_cons (s : Lifecycle) (e : LifecycleEvent) (es : List LifecycleEvent) :
    s.run (e :: es) = (s.step e).run es := rfl

/-- The lifecycle after an upgrade: the default configuration, and no timer or task. -/
def upgraded : Lifecycle := ⟨Config.default, .idle⟩

@[simp] theorem step_upgrade (s : Lifecycle) : s.step .upgrade = upgraded := rfl

/-- An idle task stays idle, and the configuration with it, under timer firings and answers. -/
theorem step_of_idle {s : Lifecycle} (hs : s.task = .idle) {e : LifecycleEvent}
    (he : e.isInstall = false) (hu : e ≠ .upgrade) : s.step e = s := by
  obtain ⟨config, task⟩ := s
  subst hs
  cases e with
  | install => cases he
  | timerFires => rfl
  | answer => rfl
  | upgrade => exact absurd rfl hu

/-- From an idle task, a run without a reinstall leaves everything as it was until its first
upgrade, and the upgraded lifecycle from then on. -/
theorem run_of_idle {s : Lifecycle} (hs : s.task = .idle) {es : List LifecycleEvent}
    (hes : ∀ e ∈ es, e.isInstall = false) :
    s.run es = if .upgrade ∈ es then upgraded else s := by
  induction es generalizing s with
  | nil => rfl
  | cons e es ih =>
    have hes' : ∀ e' ∈ es, e'.isInstall = false := fun e' he' => hes e' (List.mem_cons_of_mem e he')
    by_cases hu : e = .upgrade
    · subst hu
      rw [run_cons, step_upgrade, ih rfl hes', if_pos (List.mem_cons_self _ _), ite_self]
    · rw [run_cons, step_of_idle hs (hes e (List.mem_cons_self e es)) hu, ih hs hes']
      simp only [List.mem_cons, Ne.symm hu, false_or]

/-- What `init` writes stays under every event but an upgrade and an install. -/
theorem step_network {s : Lifecycle} {e : LifecycleEvent} (he : e.isInstall = false)
    (hu : e ≠ .upgrade) :
    (s.step e).config.bitcoinNetwork? = s.config.bitcoinNetwork? ∧
      (s.step e).config.keyname? = s.config.keyname? := by
  obtain ⟨config, task⟩ := s
  cases e with
  | install => cases he
  | upgrade => exact absurd rfl hu
  | timerFires =>
    cases task with
    | timer =>
      dsimp only [step]
      split <;> exact ⟨rfl, rfl⟩
    | awaiting | idle => exact ⟨rfl, rfl⟩
  | answer response =>
    cases task with
    | awaiting => cases response <;> exact ⟨rfl, rfl⟩
    | timer | idle => exact ⟨rfl, rfl⟩

/-- Along a run without a reinstall, what `init` wrote stays until the first upgrade, and is
erased from then on. -/
theorem run_network {s : Lifecycle} {es : List LifecycleEvent}
    (hes : ∀ e ∈ es, e.isInstall = false) :
    (s.run es).config.bitcoinNetwork? =
        (if .upgrade ∈ es then none else s.config.bitcoinNetwork?) ∧
      (s.run es).config.keyname? = if .upgrade ∈ es then none else s.config.keyname? := by
  induction es generalizing s with
  | nil => exact ⟨rfl, rfl⟩
  | cons e es ih =>
    have hes' : ∀ e' ∈ es, e'.isInstall = false := fun e' he' => hes e' (List.mem_cons_of_mem e he')
    rw [run_cons]
    by_cases hu : e = .upgrade
    · subst hu
      obtain ⟨hn, hk⟩ := ih (s := upgraded) hes'
      rw [if_pos (List.mem_cons_self _ _), if_pos (List.mem_cons_self _ _), step_upgrade, hn, hk]
      exact ⟨ite_self _, ite_self _⟩
    · obtain ⟨hn, hk⟩ := step_network (hes e (List.mem_cons_self e es)) hu
      have h := ih (s := s.step e) hes'
      rw [hn, hk] at h
      simpa only [List.mem_cons, Ne.symm hu, false_or] using h

/-- A written key means the task has ended: every event keeps this. -/
def KeyedIdle (s : Lifecycle) : Prop := s.config.ecdsaPublicKey? ≠ none → s.task = .idle

theorem KeyedIdle.step {s : Lifecycle} (hs : s.KeyedIdle) (e : LifecycleEvent) :
    (s.step e).KeyedIdle := by
  obtain ⟨config, task⟩ := s
  cases e with
  | install => exact fun h => absurd rfl h
  | upgrade => exact fun _ => rfl
  | timerFires =>
    cases task with
    | timer =>
      dsimp only [Lifecycle.step]
      split
      · exact fun h => nomatch hs h
      · exact fun _ => rfl
    | awaiting | idle => exact hs
  | answer response =>
    cases task with
    | awaiting => cases response <;> exact fun _ => rfl
    | timer | idle => exact hs

theorem KeyedIdle.run {s : Lifecycle} (hs : s.KeyedIdle) (es : List LifecycleEvent) :
    (s.run es).KeyedIdle := by
  induction es generalizing s with
  | nil => exact hs
  | cons e es ih => exact ih (hs.step e)

theorem keyedIdle_install (s : Lifecycle) (n : BitcoinNetwork) : (s.step (.install n)).KeyedIdle :=
  fun h => absurd rfl h

end Lifecycle

open Lifecycle in
/-- After an install, along every run without a reinstall, `bitcoin_network()` returns the network
`init` wrote and `ecdsakeyid()` the key `init` names for it (`key_1` on mainnet, `test_key_1` on
testnet, `dfx_test_key` on regtest), until the first upgrade; from the first upgrade on, both
trap with "canister's config uninitialized". -/
theorem installed_config_resolves (s : Lifecycle) (n : BitcoinNetwork) {es : List LifecycleEvent}
    (hes : ∀ e ∈ es, e.isInstall = false) :
    ((s.step (.install n)).run es).config.bitcoinNetwork =
        (if .upgrade ∈ es then .error configUninitialized else .ok n) ∧
      ((s.step (.install n)).run es).config.ecdsakeyid =
        (if .upgrade ∈ es then .error configUninitialized else .ok ⟨keyName n⟩) := by
  obtain ⟨hn, hk⟩ := run_network (s := s.step (.install n)) hes
  split
  · exact ⟨Config.get_of_none (by rw [hn, if_pos ‹_›]),
      by rw [Config.ecdsakeyid, Config.keyname, Config.get_of_none (by rw [hk, if_pos ‹_›])]; rfl⟩
  · exact ⟨Config.get_eq_ok.mpr (by rw [hn, if_neg ‹_›]; rfl),
      Config.ecdsakeyid_eq_ok.mpr (by rw [hk, if_neg ‹_›]; rfl)⟩

/-- A key of 33 bytes of 2 with an empty chain code. -/
def sampleKey : EcdsaPublicKey := ⟨List.replicate 33 2, []⟩

/-- On testnet the setup writes the key, and an upgrade then leaves the network and the key id
unreadable. -/
theorem upgradedTestnet_traps :
    (∀ e ∈ [LifecycleEvent.timerFires, .answer (some sampleKey), .upgrade], e.isInstall = false) ∧
      (((Lifecycle.mk Config.default .idle).step (.install .testnet)).run
        [.timerFires, .answer (some sampleKey), .upgrade]).config.bitcoinNetwork =
          .error configUninitialized ∧
      (((Lifecycle.mk Config.default .idle).step (.install .testnet)).run
        [.timerFires, .answer (some sampleKey), .upgrade]).config.ecdsakeyid =
          .error configUninitialized := by
  have hes : ∀ e ∈ [LifecycleEvent.timerFires, .answer (some sampleKey), .upgrade],
      e.isInstall = false := by
    decide
  have h := installed_config_resolves (Lifecycle.mk Config.default .idle) .testnet hes
  rw [if_pos (by decide)] at h
  exact ⟨hes, h⟩

/-- Once the setup task has ended without writing the key, along every run without a reinstall
the task stays ended, the key unwritten, and every address derivation traps with "canister's
config uninitialized": nothing schedules the task again. -/
theorem idle_setup_strands_addresses {s : Lifecycle} (hs : s.task = .idle)
    (hkey : s.config.ecdsaPublicKey? = none) {es : List LifecycleEvent}
    (hes : ∀ e ∈ es, e.isInstall = false) (encode : UInt8 → EcdsaPublicKey → Account → String)
    (account : Account) :
    (s.run es).task = .idle ∧ (s.run es).config.ecdsaPublicKey? = none ∧
      accountToP2pkhAddress encode (s.run es).config account = .error configUninitialized := by
  obtain ⟨htask, hnone⟩ : (s.run es).task = .idle ∧ (s.run es).config.ecdsaPublicKey? = none := by
    rw [Lifecycle.run_of_idle hs hes]
    split
    exacts [⟨rfl, rfl⟩, ⟨hs, hkey⟩]
  exact ⟨htask, hnone, accountToP2pkhAddress_of_none hnone account⟩

/-- An upgrade before the zero-second timer fires: the timer is lost, and a later firing and an
answer carrying the key find no task, so no address can be derived on regtest. -/
theorem upgradeBeforeTimer_strands :
    ((Lifecycle.mk Config.default .idle).run [.install .regtest, .upgrade]).task = .idle ∧
      ((Lifecycle.mk Config.default .idle).run [.install .regtest, .upgrade]).config.ecdsaPublicKey?
        = none ∧
      (∀ e ∈ [LifecycleEvent.timerFires, .answer (some sampleKey)], e.isInstall = false) ∧
      (((Lifecycle.mk Config.default .idle).run [.install .regtest, .upgrade]).run
          [.timerFires, .answer (some sampleKey)]).task = .idle ∧
      (((Lifecycle.mk Config.default .idle).run [.install .regtest, .upgrade]).run
          [.timerFires, .answer (some sampleKey)]).config.ecdsaPublicKey? = none ∧
      accountToP2pkhAddress (fun _ _ _ => "") (((Lifecycle.mk Config.default .idle).run
          [.install .regtest, .upgrade]).run [.timerFires, .answer (some sampleKey)]).config
          ⟨[], none⟩ = .error configUninitialized := by
  have hs : ((Lifecycle.mk Config.default .idle).run [.install .regtest, .upgrade]).task = .idle :=
    rfl
  have hkey : ((Lifecycle.mk Config.default .idle).run
      [.install .regtest, .upgrade]).config.ecdsaPublicKey? = none := rfl
  have hes : ∀ e ∈ [LifecycleEvent.timerFires, .answer (some sampleKey)],
      e.isInstall = false := by
    decide
  exact ⟨hs, hkey, hes,
    idle_setup_strands_addresses hs hkey hes (fun _ _ _ => "") ⟨[], none⟩⟩

/-- After an install, once the key is written, along every run without a reinstall it stays the
same until the first upgrade, which erases it; the task that wrote it has ended, so nothing writes
it again. -/
theorem written_key_is_final (s : Lifecycle) (n : BitcoinNetwork) {pre es : List LifecycleEvent}
    {key : EcdsaPublicKey}
    (hkey : ((s.step (.install n)).run pre).config.ecdsaPublicKey? = some key)
    (hes : ∀ e ∈ es, e.isInstall = false) :
    (((s.step (.install n)).run pre).run es).config.ecdsaPublicKey? =
      if .upgrade ∈ es then none else some key := by
  have hidle := ((Lifecycle.keyedIdle_install s n).run pre) (by simp [hkey])
  rw [Lifecycle.run_of_idle hidle hes]
  split
  · rfl
  · exact hkey

/-- The setup succeeding on testnet: the key is written, survives a later rejected answer, and an
upgrade erases it. -/
theorem testnetKey_final :
    (((Lifecycle.mk Config.default .idle).step (.install .testnet)).run
        [.timerFires, .answer (some sampleKey)]).config.ecdsaPublicKey? = some sampleKey ∧
      (∀ e ∈ [LifecycleEvent.answer none, .upgrade], e.isInstall = false) ∧
      ((((Lifecycle.mk Config.default .idle).step (.install .testnet)).run
        [.timerFires, .answer (some sampleKey)]).run
          [.answer none, .upgrade]).config.ecdsaPublicKey? = none := by
  have hkey : (((Lifecycle.mk Config.default .idle).step (.install .testnet)).run
      [.timerFires, .answer (some sampleKey)]).config.ecdsaPublicKey? = some sampleKey := rfl
  have hes : ∀ e ∈ [LifecycleEvent.answer none, .upgrade], e.isInstall = false := by decide
  exact ⟨hkey, hes, (written_key_is_final _ _ hkey hes).trans (if_pos (by decide))⟩

end OrdWallet
