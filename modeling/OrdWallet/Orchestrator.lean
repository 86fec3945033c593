import OrdWallet.Signing

/-!
# The entry points

The update methods of `lib.rs` that move funds check the caller's balance, synchronize an address
when it falls short, call a builder, and after a failed build synchronize and build once more.
Each await commits the state and a trap discards everything since, so a trap carries the pools
committed at the last await. The synchronizer (`updater::fetch_utxos_and_update_balances`, not
among the sources) and the fee probe are parameters; each principal is the party its addresses
make.
-/

namespace OrdWallet

/-- How an update method ends. -/
inductive Outcome
  /-- `build_and_submit` is called on the builder's result; the pools are those it left. -/
  | submitted (tt : TransactionType) (m : UtxoManager)
  /-- `ic_cdk::trap(msg)`, the pools rolled back to the last commit. -/
  | trap (msg : String) (m : UtxoManager)
  /-- A panic (an `unwrap` of an `Err`, or a builder that panics), rolled back the same way. -/
  | panic (m : UtxoManager)
  /-- A fee loop that did not return within the iterations allowed. -/
  | outOfFuel

/-- The message of every balance trap. -/
def notEnoughBalance : String := "not enough balance"

/-- `u64::MAX`, the target of the synchronizations that fetch everything. -/
def u64Max : ℕ := 2 ^ 64 - 1

/-- The end of a method after a builder call that returned `r`: a result is submitted, a failure
goes on with `onError` from the pools the call left, a panic rolls back to `committed`. -/
def afterTransfer {ε : Type} (r : LoopEnd ε TransactionType) (committed : UtxoManager)
    (onError : ε → UtxoManager → Outcome) : Outcome :=
  match r with
  | .returned (.ok tt) m' => .submitted tt m'
  | .returned (.error e) m' => onError e m'
  | .trapped => .panic committed
  | .outOfFuel => .outOfFuel

/-- `if let Ok(txn) = transfer(..) { txn } else { ic_cdk::trap("not enough balance") }`: the
second build, from `m`, rolling back to `committed` when it fails. -/
def retryTransfer (fuel : ℕ) (req : Request) (committed m : UtxoManager) : Outcome :=
  afterTransfer (req.transfer fuel m) committed fun _ _ => .trap notEnoughBalance committed

/-- The halves of `withdraw_bitcoin_from_multiple_addresses`, the larger one first. -/
def splitAmount (amount : ℕ) : ℕ × ℕ :=
  if amount % 2 = 0 then (amount / 2, amount / 2) else ((amount - 1) / 2 + 1, (amount - 1) / 2)

section Methods

variable (sync : String → ℕ → UtxoManager → UtxoManager) (probe fuel : ℕ)

/-- `withdraw_bitcoin`: the caller sends `amount` to `toAddress` and pays the fee. -/
def withdrawBitcoin (caller : Party) (toAddress : Address) (amount : ℕ) (feePerVbytes : Option ℕ)
    (m : UtxoManager) : Outcome :=
  let utxoSynced := decide (m.getBitcoinBalance caller.addr < amount)
  let m₁ := if utxoSynced then sync caller.addr amount m else m
  let currentBalance := m₁.getBitcoinBalance caller.addr
  if utxoSynced && decide (currentBalance < amount) then .trap notEnoughBalance m₁
  else
    afterTransfer (PlainTxn.transfer fuel caller.addr caller.account caller.address toAddress amount true
        (feePerVbytes.getD probe) m₁) m₁ fun requiredValue m₂ =>
      if utxoSynced && decide (requiredValue < currentBalance) then .trap notEnoughBalance m₁
      else
        let m₃ := sync caller.addr requiredValue m₂
        retryTransfer fuel (.bitcoin caller.addr caller.account caller.address toAddress amount true
          (feePerVbytes.getD probe)) m₃ m₃

/-- The two-sender argument of `withdraw_bitcoin_from_multiple_addresses`: `principal0` pays the
larger half, the caller the other. -/
def multipleAddressesArgument (principal0 caller : Party) (toAddress : Address) (amount feePerVbytes : ℕ) :
    MultiSenderTxn.MultiSendTransactionArgument where
  addr0 := principal0.addr
  addr1 := caller.addr
  address0 := principal0.address
  address1 := caller.address
  account0 := principal0.account
  account1 := caller.account
  amount1 := (splitAmount amount).2
  amount0 := (splitAmount amount).1
  paidBySender := true
  receiver := toAddress
  feePerVbytes := feePerVbytes

/-- `withdraw_bitcoin_from_multiple_addresses`: `principal0` and the caller send `amount` to
`toAddress` in halves, and pay the fee. -/
def withdrawBitcoinFromMultipleAddresses (principal0 caller : Party) (toAddress : Address) (amount : ℕ)
    (feePerVbytes : Option ℕ) (m : UtxoManager) : Outcome :=
  let arg := multipleAddressesArgument principal0 caller toAddress amount (feePerVbytes.getD probe)
  let utxoSynced0 := decide (m.getBitcoinBalance principal0.addr < arg.amount0)
  let utxoSynced1 := decide (m.getBitcoinBalance caller.addr < arg.amount1)
  let m₁ := if utxoSynced0 then sync principal0.addr arg.amount0 m else m
  let m₂ := if utxoSynced1 then sync caller.addr arg.amount1 m₁ else m₁
  let currentBalance0 := m₂.getBitcoinBalance principal0.addr
  let currentBalance1 := m₂.getBitcoinBalance caller.addr
  if currentBalance0 < arg.amount0 ∨ currentBalance1 < arg.amount1 then .trap notEnoughBalance m₂
  else
    afterTransfer (MultiSenderTxn.transfer fuel arg m₂) m₂ fun required m₃ =>
      let resynced0 := decide (required.1 > currentBalance0) && !utxoSynced0
      let resynced1 := decide (required.2 > currentBalance1) && !utxoSynced1
      let m₄ := if resynced0 then sync principal0.addr required.1 m₃ else m₃
      let m₅ := if resynced1 then sync caller.addr required.2 m₄ else m₄
      let committed := if resynced0 || resynced1 then m₅ else m₂
      if m₅.getBitcoinBalance principal0.addr < required.1 ∨
          m₅.getBitcoinBalance caller.addr < required.2 then .trap notEnoughBalance committed
      else retryTransfer fuel (.legoBitcoin arg) committed m₅

/-- The rune transfer arguments of `withdraw_runestone`: the sender pays the fee, and the sender's
account stands as the receiver's. -/
def runestoneArgs (caller : Party) (runeid : RuneId) (amount : ℕ) (toAddr : String) (receiver : Address)
    (feePerVbytes : ℕ) : RunestoneTxn.RuneTransferArgs where
  runeid := runeid
  amount := amount
  senderAddr := caller.addr
  receiverAddr := toAddr
  senderAccount := caller.account
  receiverAccount := caller.account
  senderAddress := caller.address
  receiverAddress := receiver
  paidBySender := true
  feePerVbytes := feePerVbytes
  postage := none

/-- `withdraw_runestone`: the caller sends `amount` of `runeid` to the address `toAddr` and pays the
fee. -/
def withdrawRunestone (caller : Party) (runeid : RuneId) (amount : ℕ) (toAddr : String)
    (receiver : Address) (feePerVbytes : Option ℕ) (m : UtxoManager) : Outcome :=
  let args := runestoneArgs caller runeid amount toAddr receiver (feePerVbytes.getD probe)
  let utxoSynced := decide (m.getRunestoneBalance caller.addr runeid < amount)
  let m₁ := if utxoSynced then sync caller.addr u64Max m else m
  if utxoSynced && decide (m₁.getRunestoneBalance caller.addr runeid < amount) then
    .trap notEnoughBalance m₁
  else
    afterTransfer (RunestoneTxn.transfer fuel args m₁) m₁ fun required m₂ =>
      if decide (required.2 > m₂.getBitcoinBalance caller.addr) && !utxoSynced then
        let m₃ := sync caller.addr u64Max m₂
        if m₃.getBitcoinBalance caller.addr < required.2 then .trap notEnoughBalance m₃
        else retryTransfer fuel (.runestone args) m₃ m₃
      else retryTransfer fuel (.runestone args) m₁ m₂

/-- The rune transfer arguments of `withdraw_runestone_with_fee_paid_by_receiver`: the receiver is
the principal `toParty`, and `paid_by_sender` is `true`. -/
def feePaidByReceiverArgs (caller toParty : Party) (runeid : RuneId) (amount feePerVbytes : ℕ) :
    RunestoneTxn.RuneTransferArgs where
  runeid := runeid
  amount := amount
  senderAddr := caller.addr
  receiverAddr := toParty.addr
  senderAddress := caller.address
  receiverAddress := toParty.address
  senderAccount := caller.account
  receiverAccount := toParty.account
  feePerVbytes := feePerVbytes
  paidBySender := true
  postage := none

/-- `withdraw_runestone_with_fee_paid_by_receiver`: the caller sends `amount` of `runeid` to the
principal `toParty`; the method checks and synchronizes its BTC for the fee. -/
def withdrawRunestoneWithFeePaidByReceiver (caller toParty : Party) (runeid : RuneId) (amount : ℕ)
    (feePerVbytes : Option ℕ) (m : UtxoManager) : Outcome :=
  let args := feePaidByReceiverArgs caller toParty runeid amount (feePerVbytes.getD probe)
  let currentBtcBalance := m.getBitcoinBalance toParty.addr
  let short := decide (m.getRunestoneBalance caller.addr runeid < amount)
  let m₁ := if short then sync caller.addr u64Max m else m
  if short && decide (m₁.getRunestoneBalance caller.addr runeid < amount) then
    .trap notEnoughBalance m₁
  else
    afterTransfer (RunestoneTxn.transfer fuel args m₁) m₁ fun required m₂ =>
      if required.2 > currentBtcBalance then
        let m₃ := sync toParty.addr u64Max m₂
        if m₃.getBitcoinBalance toParty.addr < required.2 then .trap notEnoughBalance m₃
        else retryTransfer fuel (.runestone args) m₃ m₃
      else retryTransfer fuel (.runestone args) m₁ m₂

/-- The combined request of `withdraw_combined`: the receiver pays the fee. -/
def combinedRequest (caller receiver : Party) (runeid : RuneId) (runeAmount btcAmount feePerVbytes : ℕ) :
    CombinedTxn.CombinedTransactionRequest where
  fromAddr := caller.addr
  receiverAddr := receiver.addr
  senderAddress := caller.address
  receiverAddress := receiver.address
  senderAccount := caller.account
  receiverAccount := receiver.account
  runeid := runeid
  runeAmount := runeAmount
  btcAmount := btcAmount
  postage := none
  paidBySender := false
  feePerVbytes := feePerVbytes

/-- `withdraw_combined`: the caller sends `rune_amount` of `runeid` and `btc_amount` to the
principal `receiver`, who pays the fee; both addresses are synchronized first, and a failed
build is unwrapped. -/
def withdrawCombined (caller receiver : Party) (runeid : RuneId) (runeAmount btcAmount : ℕ)
    (feePerVbytes : Option ℕ) (m : UtxoManager) : Outcome :=
  let m₁ := sync receiver.addr u64Max (sync caller.addr u64Max m)
  afterTransfer (CombinedTxn.transfer fuel
      (combinedRequest caller receiver runeid runeAmount btcAmount (feePerVbytes.getD probe)) m₁)
    m₁ fun _ _ => .panic m₁

end Methods

/-- The update methods that move funds, with their arguments. -/
inductive EntryPoint
  | bitcoin (caller : Party) (toAddress : Address) (amount : ℕ) (feePerVbytes : Option ℕ)
  | fromMultipleAddresses (principal0 caller : Party) (toAddress : Address) (amount : ℕ)
      (feePerVbytes : Option ℕ)
  | runestone (caller : Party) (runeid : RuneId) (amount : ℕ) (toAddr : String) (receiver : Address)
      (feePerVbytes : Option ℕ)
  | feePaidByReceiver (caller toParty : Party) (runeid : RuneId) (amount : ℕ) (feePerVbytes : Option ℕ)
  | combined (caller receiver : Party) (runeid : RuneId) (runeAmount btcAmount : ℕ)
      (feePerVbytes : Option ℕ)

namespace EntryPoint

variable (sync : String → ℕ → UtxoManager → UtxoManager) (probe fuel : ℕ)

/-- Run a method from the pools `m`, with at most `fuel` iterations in each fee loop. -/
def run : EntryPoint → UtxoManager → Outcome
  | bitcoin caller toAddress amount feePerVbytes =>
    withdrawBitcoin sync probe fuel caller toAddress amount feePerVbytes
  | fromMultipleAddresses principal0 caller toAddress amount feePerVbytes =>
    withdrawBitcoinFromMultipleAddresses sync probe fuel principal0 caller toAddress amount feePerVbytes
  | runestone caller runeid amount toAddr receiver feePerVbytes =>
    withdrawRunestone sync probe fuel caller runeid amount toAddr receiver feePerVbytes
  | feePaidByReceiver caller toParty runeid amount feePerVbytes =>
    withdrawRunestoneWithFeePaidByReceiver sync probe fuel caller toParty runeid amount feePerVbytes
  | combined caller receiver runeid runeAmount btcAmount feePerVbytes =>
    withdrawCombined sync probe fuel caller receiver runeid runeAmount btcAmount feePerVbytes

/-- The builder call a method makes, both times it builds. -/
def request : EntryPoint → Request
  | bitcoin caller toAddress amount feePerVbytes =>
    .bitcoin caller.addr caller.account caller.address toAddress amount true (feePerVbytes.getD probe)
  | fromMultipleAddresses principal0 caller toAddress amount feePerVbytes =>
    .legoBitcoin (multipleAddressesArgument principal0 caller toAddress amount (feePerVbytes.getD probe))
  | runestone caller runeid amount toAddr receiver feePerVbytes =>
    .runestone (runestoneArgs caller runeid amount toAddr receiver (feePerVbytes.getD probe))
  | feePaidByReceiver caller toParty runeid amount feePerVbytes =>
    .runestone (feePaidByReceiverArgs caller toParty runeid amount (feePerVbytes.getD probe))
  | combined caller receiver runeid runeAmount btcAmount feePerVbytes =>
    .combined (combinedRequest caller receiver runeid runeAmount btcAmount (feePerVbytes.getD probe))

/-- The principals a method names: the caller, and the other principal it is given. -/
def parties : EntryPoint → List Party
  | bitcoin caller _ _ _ => [caller]
  | fromMultipleAddresses principal0 caller _ _ _ => [principal0, caller]
  | runestone caller _ _ _ _ _ => [caller]
  | feePaidByReceiver caller toParty _ _ _ => [caller, toParty]
  | combined caller receiver _ _ _ _ => [caller, receiver]

end EntryPoint

/-- The result an outcome submits, if it submits one. -/
def Outcome.submitted? : Outcome → Option TransactionType
  | submitted tt _ => some tt
  | _ => none

theorem Outcome.submitted?_eq_some {o : Outcome} {tt : TransactionType} :
    o.submitted? = some tt ↔ ∃ m', o = .submitted tt m' := by
  cases o <;> simp [Outcome.submitted?]

/-- Every result the outcome submits is one the builder call `req` returned, from the pools of
some moment. -/
def Outcome.ComesFrom (fuel : ℕ) (req : Request) (o : Outcome) : Prop :=
  ∀ tt m', o = .submitted tt m' → ∃ m₀, req.transfer fuel m₀ = .returned (.ok tt) m'

namespace Outcome

variable {fuel : ℕ} {req : Request}

theorem comesFrom_trap {msg : String} {m : UtxoManager} : (trap msg m).ComesFrom fuel req :=
  fun _ _ h => by cases h

theorem comesFrom_panic {m : UtxoManager} : (panic m).ComesFrom fuel req :=
  fun _ _ h => by cases h

theorem comesFrom_ite {c : Prop} [Decidable c] {a b : Outcome} (ha : a.ComesFrom fuel req)
    (hb : b.ComesFrom fuel req) : (if c then a else b).ComesFrom fuel req := by
  split
  · exact ha
  · exact hb

/-- After a builder call, what is submitted is what the call returned, or comes from what
follows its failure. -/
theorem comesFrom_afterTransfer {ε : Type} {r : LoopEnd ε TransactionType} {committed : UtxoManager}
    {onError : ε → UtxoManager → Outcome}
    (hr : ∀ tt m', r = .returned (.ok tt) m' → req.transfer fuel committed = .returned (.ok tt) m')
    (hk : ∀ e m₂, (onError e m₂).ComesFrom fuel req) :
    (afterTransfer r committed onError).ComesFrom fuel req := by
  intro tt m' h
  unfold afterTransfer at h
  split at h
  · cases h
    exact ⟨committed, hr _ _ rfl⟩
  · exact hk _ _ tt m' h
  · cases h
  · cases h

theorem comesFrom_retryTransfer {committed m : UtxoManager} :
    (retryTransfer fuel req committed m).ComesFrom fuel req := by
  intro tt m' h
  unfold retryTransfer afterTransfer at h
  split at h
  · cases h
    exact ⟨m, by assumption⟩
  all_goals cases h

end Outcome

namespace EntryPoint

variable {sync : String → ℕ → UtxoManager → UtxoManager} {probe fuel : ℕ}

open Outcome in
/-- Whatever a method synchronizes and however often it builds, what it submits is the result of
its builder call from the pools of that moment. -/
theorem comesFrom_run (e : EntryPoint) (m : UtxoManager) :
    (e.run sync probe fuel m).ComesFrom fuel (e.request probe) := by
  cases e with
  | bitcoin | fromMultipleAddresses =>
    exact comesFrom_ite comesFrom_trap (comesFrom_afterTransfer
      (fun _ _ h => LoopEnd.mapError_eq_returned_ok.mpr h)
      fun _ _ => comesFrom_ite comesFrom_trap comesFrom_retryTransfer)
  | runestone | feePaidByReceiver =>
    exact comesFrom_ite comesFrom_trap (comesFrom_afterTransfer
      (fun _ _ h => LoopEnd.mapError_eq_returned_ok.mpr h)
      fun _ _ => comesFrom_ite (comesFrom_ite comesFrom_trap comesFrom_retryTransfer)
        comesFrom_retryTransfer)
  | combined =>
    exact comesFrom_afterTransfer (fun _ _ h => LoopEnd.mapError_eq_returned_ok.mpr h)
      fun _ _ => comesFrom_panic

/-- The inputs of a method's result are drawn from the pools of the principals it names. -/
theorem owners_mem_parties {e : EntryPoint} {m₀ m' : UtxoManager} {tt : TransactionType}
    (h : (e.request probe).transfer fuel m₀ = .returned (.ok tt) m') : ∀ p ∈ tt.owners, p ∈ e.parties := by
  obtain ⟨fee, txn, hb, -⟩ := Request.transfer_ok h
  cases e with
  | bitcoin caller =>
    obtain ⟨utxos, -, rfl⟩ := Request.build_eq_ok hb
    simp [TransactionType.owners, List.mem_replicate, parties]
  | fromMultipleAddresses principal0 caller =>
    obtain ⟨u0, u1, -, rfl⟩ := Request.build_eq_ok hb
    intro p hp
    simp [TransactionType.owners, List.mem_replicate, multipleAddressesArgument] at hp
    rcases hp with ⟨-, rfl⟩ | ⟨-, rfl⟩ <;> simp [parties]
  | runestone caller =>
    obtain ⟨runicUtxos, feeUtxos, -, rfl⟩ := Request.build_eq_ok hb
    simp [TransactionType.owners, List.mem_replicate, runestoneArgs, parties]
  | feePaidByReceiver caller toParty =>
    obtain ⟨runicUtxos, feeUtxos, -, rfl⟩ := Request.build_eq_ok hb
    simp [TransactionType.owners, List.mem_replicate, feePaidByReceiverArgs, parties]
  | combined caller receiver =>
    obtain ⟨runicUtxos, btcUtxos, feeUtxos, -, rfl⟩ := Request.build_eq_ok hb
    intro p hp
    simp [TransactionType.owners, List.mem_replicate, combinedRequest] at hp
    rcases hp with ⟨-, rfl⟩ | ⟨-, rfl⟩ <;> simp [parties]

end EntryPoint

/-- Every transaction an update method submits, after whatever synchronizations and builds it
made, spends only UTXOs its builder call took from the pools, each drawn from a pool of a
principal the method names (the caller, and `principal0`, `to` or the receiver it is given), and
`build_and_submit` signs each with the key of the principal it was drawn from. -/
theorem entryPoint_spends_named_parties {sync : String → ℕ → UtxoManager → UtxoManager}
    {probe fuel : ℕ} {e : EntryPoint} {m m' : UtxoManager} {tt : TransactionType}
    (h : e.run sync probe fuel m = .submitted tt m') :
    ∃ m₀, Takes m₀ m' tt.plainDrawn tt.runicDrawn ∧
      List.Forall₂ (fun p u => p ∈ e.parties ∧ tt.DrawnFrom p.addr u) tt.owners tt.spentUtxos ∧
      (List.range tt.spentUtxos.length).map tt.signer = tt.owners.map Party.key := by
  obtain ⟨m₀, htr⟩ := e.comesFrom_run m tt m' h
  obtain ⟨fee, txn, hb, -⟩ := Request.transfer_ok htr
  exact ⟨m₀, Request.transfer_ok_takes htr,
    (List.forall₂_and_left _ _).mpr ⟨EntryPoint.owners_mem_parties htr, tt.forall₂_drawnFrom⟩,
    Request.map_signer_of_build hb⟩

/-- The two holders of `pairPools` as principals. -/
def aliceParty : Party := ⟨"alice", Address.p2pkh (List.replicate 20 1), ⟨[1], none⟩⟩

def bobParty : Party := ⟨"bob", Address.p2pkh (List.replicate 20 2), ⟨[2], none⟩⟩

/-- `bob` calls `withdraw_bitcoin_from_multiple_addresses` naming `alice`, for 30 000 sats. -/
def pairWithdrawal : EntryPoint :=
  .fromMultipleAddresses aliceParty bobParty (Address.p2pkh (List.replicate 20 3)) 30000 (some 1000)

set_option maxRecDepth 4000 in
theorem pairWithdrawal_spends_named_parties :
    ∃ tt m', pairWithdrawal.run (fun _ _ m => m) 1000 3 pairPools = .submitted tt m' ∧
      ∃ m₀, Takes m₀ m' tt.plainDrawn tt.runicDrawn ∧
        List.Forall₂ (fun p u => p ∈ pairWithdrawal.parties ∧ tt.DrawnFrom p.addr u) tt.owners
          tt.spentUtxos ∧
        (List.range tt.spentUtxos.length).map tt.signer = tt.owners.map Party.key := by
  obtain ⟨tt, hok⟩ := Option.isSome_iff_exists.mp
    (by decide : (pairWithdrawal.run (fun _ _ m => m) 1000 3 pairPools).submitted?.isSome = true)
  obtain ⟨m', h⟩ := Outcome.submitted?_eq_some.mp hok
  exact ⟨tt, m', h, entryPoint_spends_named_parties h⟩

/-- A failed plain build asked for more than the balance of the pool it started from. -/
theorem PlainTxn.balance_lt_of_transfer_error {fuel : ℕ} {addr : String} {account : Account}
    {fromAddress toAddress : Address} {amount : ℕ} {paidBySender : Bool} {feePerVbytes : ℕ}
    {m m' : UtxoManager} {e : ℕ}
    (h : PlainTxn.transfer fuel addr account fromAddress toAddress amount paidBySender feePerVbytes
      m = .returned (.error e) m') :
    m.getBitcoinBalance addr < e := by
  obtain ⟨_, hb⟩ := PlainTxn.transfer_error h
  exact (PlainTxn.buildTransactionWithFee_error hb).2.2

/-- A synchronizer that finds one more UTXO of 10 100 sats on the chain. -/
def topUp (addr : String) (_ : ℕ) (m : UtxoManager) : UtxoManager :=
  m.recordBtcUtxos addr [⟨⟨6, 0⟩, 10100⟩]

/-- `withdraw_runestone_with_fee_paid_by_receiver` passes `paid_by_sender: true`: whenever it
submits a transaction, the receiver's pools gave it nothing and every input is signed with the
caller's key, although the method checks and synchronizes the receiver's BTC for the fee. -/
theorem feePaidByReceiver_spares_receiver {sync : String → ℕ → UtxoManager → UtxoManager}
    {probe fuel : ℕ} {caller toParty : Party} {runeid : RuneId} {amount : ℕ}
    {feePerVbytes : Option ℕ} {m m' : UtxoManager} {tt : TransactionType}
    (hne : toParty.addr ≠ caller.addr)
    (h : withdrawRunestoneWithFeePaidByReceiver sync probe fuel caller toParty runeid amount
      feePerVbytes m = .submitted tt m') :
    tt.plainDrawn toParty.addr = [] ∧ (∀ r, tt.runicDrawn toParty.addr r = []) ∧
      ∀ i < tt.spentUtxos.length, tt.signer i = caller.key := by
  obtain ⟨m₀, htr⟩ :=
    (EntryPoint.feePaidByReceiver caller toParty runeid amount feePerVbytes).comesFrom_run m tt m' h
  obtain ⟨fee, txn, hb, -⟩ := Request.transfer_ok htr
  obtain ⟨runicUtxos, feeUtxos, -, rfl⟩ := Request.build_eq_ok hb
  refine ⟨by simp [TransactionType.plainDrawn, plainAt, feePaidByReceiverArgs, hne],
    fun r => by simp [TransactionType.runicDrawn, runicAt, feePaidByReceiverArgs, hne],
    fun i hi => ?_⟩
  simp only [TransactionType.spentUtxos, List.length_append, List.length_map] at hi
  simp [TransactionType.signer, feePaidByReceiverArgs, Party.key, List.mem_range'_1]
  omega

/-- A caller holding 5 units of rune `840000:1` on a UTXO of 546 sats, and 100 000 plain sats. -/
def runeHolderPools : UtxoManager :=
  (UtxoManager.empty.recordRunicUtxos "alice" ⟨840000, 1⟩ [⟨⟨⟨9, 0⟩, 546⟩, 5⟩]).recordBtcUtxos
    "alice" [⟨⟨3, 2⟩, 100000⟩]

set_option maxRecDepth 8000 in
theorem receiverPaysSend_spares_receiver :
    ∃ tt m', withdrawRunestoneWithFeePaidByReceiver (fun _ _ m => m) 1000 3 aliceParty bobParty
        ⟨840000, 1⟩ 5 (some 1000) runeHolderPools = .submitted tt m' ∧
      bobParty.addr ≠ aliceParty.addr ∧
      tt.plainDrawn bobParty.addr = [] ∧ (∀ r, tt.runicDrawn bobParty.addr r = []) ∧
        ∀ i < tt.spentUtxos.length, tt.signer i = aliceParty.key := by
  obtain ⟨tt, hok⟩ := Option.isSome_iff_exists.mp
    (by decide : (withdrawRunestoneWithFeePaidByReceiver (fun _ _ m => m) 1000 3 aliceParty bobParty
        ⟨840000, 1⟩ 5 (some 1000) runeHolderPools).submitted?.isSome = true)
  obtain ⟨m', h⟩ := Outcome.submitted?_eq_some.mp hok
  have hne : bobParty.addr ≠ aliceParty.addr := by decide
  exact ⟨tt, m', h, hne, feePaidByReceiver_spares_receiver hne h⟩

end OrdWallet
