import OrdWallet.Canister

/-!
# Update calls interleaved at their awaits

An update method that awaits lets other messages run before it resumes. Each method is cut at its
awaits into a process: the synchronizations, the fee probe `get_fee_per_vbyte`, and in
`build_and_submit` an `ecdsa_sign` per input and `bitcoin_send_transaction`, which touch no pool.
An execution interleaves segments of any number of calls with the synchronizers' recordings.
`EntryPoint.proc_runWith` says a process run alone ends as the method does, and
`interleaving_runs_events` that every interleaving is a run of the event model.
-/

namespace OrdWallet

/-- What a call awaits: `fetch_utxos_and_update_balances(addr, target)`, or
`get_fee_per_vbyte()`. -/
inductive Await
  | sync (addr : String) (target : ℕ)
  | feeProbe

/-- What the awaited call does to the pools when no other message runs: a synchronization is
`sync`, and the fee probe leaves them. -/
def Await.apply (sync : String → ℕ → UtxoManager → UtxoManager) :
    Await → UtxoManager → UtxoManager
  | .sync addr target, m => sync addr target m
  | .feeProbe, m => m

@[simp] theorem Await.apply_sync {sync : String → ℕ → UtxoManager → UtxoManager}
    {addr : String} {target : ℕ} {m : UtxoManager} :
    (Await.sync addr target).apply sync m = sync addr target m :=
  rfl

@[simp] theorem Await.apply_feeProbe {sync : String → ℕ → UtxoManager → UtxoManager}
    {m : UtxoManager} : Await.feeProbe.apply sync m = m := rfl

/-- `get_fee_per_vbyte`, from the fee percentiles the Bitcoin interface reports: the one at index
50, or 2 000 millisatoshi per byte when it reports none (regtest); `none` where
`fee_percentiles[50]` panics. The rate it returns enters each method as the parameter `probe`. -/
def getFeePerVbyte (feePercentiles : List ℕ) : Option ℕ :=
  if feePercentiles.isEmpty then some 2000 else feePercentiles[50]?

/-- The fee probe panics exactly on a report of 1 to 50 percentiles. -/
theorem getFeePerVbyte_eq_none_iff (feePercentiles : List ℕ) :
    getFeePerVbyte feePercentiles = none ↔
      0 < feePercentiles.length ∧ feePercentiles.length ≤ 50 := by
  cases feePercentiles with
  | nil => simp [getFeePerVbyte]
  | cons p ps => simp [getFeePerVbyte, List.getElem?_eq_none_iff]

/-- On the interface's 101 percentiles, the probe is the median. -/
example : getFeePerVbyte (List.range 101) = some 50 := rfl

/-- An update call between two segments: ended, or suspended at the await `a` after leaving the
pools `m`, `k` being the rest of the call from the pools it finds when it resumes. -/
inductive Proc
  | done (o : Outcome)
  | await (a : Await) (m : UtxoManager) (k : UtxoManager → Proc)

namespace Proc

/-- `if c { a.await }`, then `k`. -/
def awaitIf (c : Bool) (a : Await) (m : UtxoManager) (k : UtxoManager → Proc) : Proc :=
  if c then .await a m k else k m

/-- `afterTransfer`, with the rest of the call after a failed build a process. -/
def afterTransfer {ε : Type} (r : LoopEnd ε TransactionType) (committed : UtxoManager)
    (onError : ε → UtxoManager → Proc) : Proc :=
  match r with
  | .returned (.ok tt) m' => .done (.submitted tt m')
  | .returned (.error e) m' => onError e m'
  | .trapped => .done (.panic committed)
  | .outOfFuel => .done .outOfFuel

/-- The call run alone: each synchronization is `sync`, and nothing runs in between. -/
def runWith (sync : String → ℕ → UtxoManager → UtxoManager) : Proc → Outcome
  | .done o => o
  | .await a m k => (k (a.apply sync m)).runWith sync

variable {sync : String → ℕ → UtxoManager → UtxoManager}

@[simp] theorem runWith_done (o : Outcome) : (Proc.done o).runWith sync = o := rfl

@[simp] theorem runWith_await {a : Await} {m : UtxoManager} {k : UtxoManager → Proc} :
    (Proc.await a m k).runWith sync = (k (a.apply sync m)).runWith sync := rfl

@[simp] theorem runWith_awaitIf {c : Bool} {a : Await} {m : UtxoManager}
    {k : UtxoManager → Proc} :
    (awaitIf c a m k).runWith sync = (k (if c then a.apply sync m else m)).runWith sync := by
  cases c <;> rfl

@[simp] theorem runWith_afterTransfer {ε : Type} {r : LoopEnd ε TransactionType}
    {committed : UtxoManager} {onError : ε → UtxoManager → Proc} :
    (afterTransfer r committed onError).runWith sync =
      OrdWallet.afterTransfer r committed fun e m' => (onError e m').runWith sync := by
  rcases r with ⟨_ | _, _⟩ | _ | _ <;> rfl

end Proc

section Methods

variable (probe fuel : ℕ)

/-- `withdraw_bitcoin`, cut at its awaits. -/
def withdrawBitcoinProc (caller : Party) (toAddress : Address) (amount : ℕ)
    (feePerVbytes : Option ℕ) (m : UtxoManager) : Proc :=
  let utxoSynced := decide (m.getBitcoinBalance caller.addr < amount)
  .awaitIf utxoSynced (.sync caller.addr amount) m fun m₁ =>
    let currentBalance := m₁.getBitcoinBalance caller.addr
    if utxoSynced && decide (currentBalance < amount) then .done (.trap notEnoughBalance m₁)
    else
      .awaitIf feePerVbytes.isNone .feeProbe m₁ fun m₂ =>
      .afterTransfer (PlainTxn.transfer fuel caller.addr caller.account caller.address toAddress
          amount true (feePerVbytes.getD probe) m₂) m₂ fun requiredValue m₃ =>
        if utxoSynced && decide (requiredValue < currentBalance) then
          .done (.trap notEnoughBalance m₂)
        else
          .await (.sync caller.addr requiredValue) m₃ fun m₄ =>
            .done (retryTransfer fuel (.bitcoin caller.addr caller.account caller.address toAddress
              amount true (feePerVbytes.getD probe)) m₄ m₄)

/-- The `Err` arm of `withdraw_bitcoin_from_multiple_addresses`: synchronize each sender the
failed build found short and not yet synchronized, check the balances, and build again; a trap
rolls back to the last synchronization, or to the pools `m₂` the failed build began with when
there was none. -/
def resyncAndRetry (principal0 caller : Party) (arg : MultiSenderTxn.MultiSendTransactionArgument)
    (resynced0 resynced1 : Bool) (required : ℕ × ℕ) (m₂ m₃ : UtxoManager) : Proc :=
  .awaitIf resynced0 (.sync principal0.addr required.1) m₃ fun m₄ =>
  .awaitIf resynced1 (.sync caller.addr required.2) m₄ fun m₅ =>
    let committed := if resynced0 || resynced1 then m₅ else m₂
    if m₅.getBitcoinBalance principal0.addr < required.1 ∨
        m₅.getBitcoinBalance caller.addr < required.2 then
      .done (.trap notEnoughBalance committed)
    else .done (retryTransfer fuel (.legoBitcoin arg) committed m₅)

/-- `withdraw_bitcoin_from_multiple_addresses`, cut at its awaits. -/
def withdrawBitcoinFromMultipleAddressesProc (principal0 caller : Party) (toAddress : Address)
    (amount : ℕ) (feePerVbytes : Option ℕ) (m : UtxoManager) : Proc :=
  let arg := multipleAddressesArgument principal0 caller toAddress amount (feePerVbytes.getD probe)
  .awaitIf feePerVbytes.isNone .feeProbe m fun m₀ =>
  let utxoSynced0 := decide (m₀.getBitcoinBalance principal0.addr < arg.amount0)
  let utxoSynced1 := decide (m₀.getBitcoinBalance caller.addr < arg.amount1)
  .awaitIf utxoSynced0 (.sync principal0.addr arg.amount0) m₀ fun m₁ =>
  .awaitIf utxoSynced1 (.sync caller.addr arg.amount1) m₁ fun m₂ =>
    let currentBalance0 := m₂.getBitcoinBalance principal0.addr
    let currentBalance1 := m₂.getBitcoinBalance caller.addr
    if currentBalance0 < arg.amount0 ∨ currentBalance1 < arg.amount1 then
      .done (.trap notEnoughBalance m₂)
    else
      .afterTransfer (MultiSenderTxn.transfer fuel arg m₂) m₂ fun required m₃ =>
        resyncAndRetry fuel principal0 caller arg
          (decide (required.1 > currentBalance0) && !utxoSynced0)
          (decide (required.2 > currentBalance1) && !utxoSynced1) required m₂ m₃

/-- `withdraw_runestone`, cut at its awaits. -/
def withdrawRunestoneProc (caller : Party) (runeid : RuneId) (amount : ℕ) (toAddr : String)
    (receiver : Address) (feePerVbytes : Option ℕ) (m : UtxoManager) : Proc :=
  let args := runestoneArgs caller runeid amount toAddr receiver (feePerVbytes.getD probe)
  .awaitIf feePerVbytes.isNone .feeProbe m fun m₀ =>
  let utxoSynced := decide (m₀.getRunestoneBalance caller.addr runeid < amount)
  .awaitIf utxoSynced (.sync caller.addr u64Max) m₀ fun m₁ =>
    if utxoSynced && decide (m₁.getRunestoneBalance caller.addr runeid < amount) then
      .done (.trap notEnoughBalance m₁)
    else
      .afterTransfer (RunestoneTxn.transfer fuel args m₁) m₁ fun required m₂ =>
        if decide (required.2 > m₂.getBitcoinBalance caller.addr) && !utxoSynced then
          .await (.sync caller.addr u64Max) m₂ fun m₃ =>
            if m₃.getBitcoinBalance caller.addr < required.2 then
              .done (.trap notEnoughBalance m₃)
            else .done (retryTransfer fuel (.runestone args) m₃ m₃)
        else .done (retryTransfer fuel (.runestone args) m₁ m₂)

/-- `withdraw_runestone_with_fee_paid_by_receiver`, cut at its awaits. -/
def withdrawRunestoneWithFeePaidByReceiverProc (caller toParty : Party) (runeid : RuneId)
    (amount : ℕ) (feePerVbytes : Option ℕ) (m : UtxoManager) : Proc :=
  let args := feePaidByReceiverArgs caller toParty runeid amount (feePerVbytes.getD probe)
  let currentBtcBalance := m.getBitcoinBalance toParty.addr
  let short := decide (m.getRunestoneBalance caller.addr runeid < amount)
  .awaitIf short (.sync caller.addr u64Max) m fun m₁ =>
    if short && decide (m₁.getRunestoneBalance caller.addr runeid < amount) then
      .done (.trap notEnoughBalance m₁)
    else
      .awaitIf feePerVbytes.isNone .feeProbe m₁ fun m₂ =>
      .afterTransfer (RunestoneTxn.transfer fuel args m₂) m₂ fun required m₃ =>
        if required.2 > currentBtcBalance then
          .await (.sync toParty.addr u64Max) m₃ fun m₄ =>
            if m₄.getBitcoinBalance toParty.addr < required.2 then
              .done (.trap notEnoughBalance m₄)
            else .done (retryTransfer fuel (.runestone args) m₄ m₄)
        else .done (retryTransfer fuel (.runestone args) m₂ m₃)

/-- `withdraw_combined`, cut at its awaits. -/
def withdrawCombinedProc (caller receiver : Party) (runeid : RuneId) (runeAmount btcAmount : ℕ)
    (feePerVbytes : Option ℕ) (m : UtxoManager) : Proc :=
  .await (.sync caller.addr u64Max) m fun m₀ =>
  .await (.sync receiver.addr u64Max) m₀ fun m₁ =>
  .awaitIf feePerVbytes.isNone .feeProbe m₁ fun m₂ =>
    .afterTransfer (CombinedTxn.transfer fuel
        (combinedRequest caller receiver runeid runeAmount btcAmount (feePerVbytes.getD probe))
        m₂)
      m₂ fun _ _ => .done (.panic m₂)

end Methods

namespace EntryPoint

/-- The method, cut at its awaits, from the pools it starts with. -/
def proc (probe fuel : ℕ) : EntryPoint → UtxoManager → Proc
  | bitcoin caller toAddress amount feePerVbytes =>
    withdrawBitcoinProc probe fuel caller toAddress amount feePerVbytes
  | fromMultipleAddresses principal0 caller toAddress amount feePerVbytes =>
    withdrawBitcoinFromMultipleAddressesProc probe fuel principal0 caller toAddress amount
      feePerVbytes
  | runestone caller runeid amount toAddr receiver feePerVbytes =>
    withdrawRunestoneProc probe fuel caller runeid amount toAddr receiver feePerVbytes
  | feePaidByReceiver caller toParty runeid amount feePerVbytes =>
    withdrawRunestoneWithFeePaidByReceiverProc probe fuel caller toParty runeid amount feePerVbytes
  | combined caller receiver runeid runeAmount btcAmount feePerVbytes =>
    withdrawCombinedProc probe fuel caller receiver runeid runeAmount btcAmount feePerVbytes

/-- Run with nothing in between, each process ends as its method does. -/
theorem proc_runWith (e : EntryPoint) (sync : String → ℕ → UtxoManager → UtxoManager)
    (probe fuel : ℕ) (m : UtxoManager) :
    (e.proc probe fuel m).runWith sync = e.run sync probe fuel m := by
  cases e <;>
    simp only [proc, run, withdrawBitcoinProc, withdrawBitcoin,
      withdrawBitcoinFromMultipleAddressesProc, withdrawBitcoinFromMultipleAddresses,
      resyncAndRetry,
      withdrawRunestoneProc, withdrawRunestone, withdrawRunestoneWithFeePaidByReceiverProc,
      withdrawRunestoneWithFeePaidByReceiver, withdrawCombinedProc, withdrawCombined,
      Proc.runWith_awaitIf, Proc.runWith_await, Await.apply_sync, Await.apply_feeProbe,
      Proc.runWith_afterTransfer, Proc.runWith_done, ite_self, apply_ite (Proc.runWith sync)]

end EntryPoint

/-! ### Every segment is a run of events -/

/-- The world a segment that began in `w` leaves when it ends the call with `o`: a submitted
result is built; any other end is a trap, and the canister rolls the segment back. -/
def Outcome.settle (w : World) : Outcome → World
  | .submitted tt m => ⟨m, w.built ++ [tt.spentUtxos.map (·.outpoint)]⟩
  | _ => w

namespace Proc

/-- Every segment of the process, from the world it begins in, is a run of events that `ok`
allows: to the world it leaves when it ends the call, or to the pools it leaves at an await; the
rest of the call is sound from whatever world it resumes in. -/
def Sound (ok : World → Event → Prop) : Proc → World → Prop
  | .done o, w => w.Leads ok (o.settle w)
  | .await _ m k, w => w.Leads ok ⟨m, w.built⟩ ∧ ∀ m' built, (k m').Sound ok ⟨m', built⟩

/-- The rest of a call is sound from every world from which the pools it is given are reached. -/
def SoundRest (ok : World → Event → Prop) (k : UtxoManager → Proc) : Prop :=
  ∀ w m, w.Leads ok ⟨m, w.built⟩ → (k m).Sound ok w

variable {ok : World → Event → Prop} {w : World}

theorem sound_trap {msg : String} {m : UtxoManager} : (Proc.done (.trap msg m)).Sound ok w :=
  World.Leads.refl

theorem sound_panic {m : UtxoManager} : (Proc.done (.panic m)).Sound ok w := World.Leads.refl

theorem sound_await {a : Await} {m : UtxoManager} {k : UtxoManager → Proc}
    (hm : w.Leads ok ⟨m, w.built⟩) (hk : SoundRest ok k) : (Proc.await a m k).Sound ok w :=
  ⟨hm, fun m' built => hk ⟨m', built⟩ m' World.Leads.refl⟩

theorem sound_awaitIf {c : Bool} {a : Await} {m : UtxoManager} {k : UtxoManager → Proc}
    (hm : w.Leads ok ⟨m, w.built⟩) (hk : SoundRest ok k) : (awaitIf c a m k).Sound ok w := by
  cases c
  · exact hk w m hm
  · exact sound_await hm hk

theorem sound_ite {c : Prop} [Decidable c] {p q : Proc} (hp : p.Sound ok w) (hq : q.Sound ok w) :
    (if c then p else q).Sound ok w := by
  split
  · exact hp
  · exact hq

/-- A builder call from pools the segment reached: a result is built by one more event, a failure
goes on from the pools it left. -/
theorem sound_afterTransfer {ε : Type} {f : ε → Shortfall} {r : LoopEnd ε TransactionType}
    {req : Request} {fuel : ℕ} {m committed : UtxoManager} {onError : ε → UtxoManager → Proc}
    (hok : ∀ v, ok v (.transfer fuel req)) (hr : req.transfer fuel m = r.mapError f)
    (hm : w.Leads ok ⟨m, w.built⟩)
    (hk : ∀ e m₂, w.Leads ok ⟨m₂, w.built⟩ → (onError e m₂).Sound ok w) :
    (afterTransfer r committed onError).Sound ok w := by
  have hstep := hm.step (hok _)
  rcases r with ⟨_ | _, m'⟩ | _ | _
  · rw [World.step_transfer_error hr] at hstep
    exact hk _ _ hstep
  · rw [World.step_transfer_ok hr] at hstep
    exact hstep
  · exact sound_panic
  · exact World.Leads.refl

/-- The retry of a method is a builder call whose failure traps. -/
theorem done_retryTransfer {req : Request} {fuel : ℕ} {committed m : UtxoManager} :
    Proc.done (retryTransfer fuel req committed m) =
      afterTransfer (req.transfer fuel m) committed fun _ _ =>
        .done (.trap notEnoughBalance committed) := by
  unfold retryTransfer
  rcases req.transfer fuel m with ⟨_ | _, _⟩ | _ | _ <;> rfl

theorem sound_retryTransfer {req : Request} {fuel : ℕ} {committed m : UtxoManager}
    (hok : ∀ v, ok v (.transfer fuel req)) (hm : w.Leads ok ⟨m, w.built⟩) :
    (Proc.done (retryTransfer fuel req committed m)).Sound ok w := by
  rw [done_retryTransfer]
  exact sound_afterTransfer hok (LoopEnd.mapError_id _).symm hm fun _ _ _ => sound_trap

end Proc

open Proc in
/-- Every method's process is sound, when its builder call is an event `ok` allows wherever it
lands: each segment is a run of builder calls of the method's request. -/
theorem EntryPoint.proc_sound (e : EntryPoint) (ok : World → Event → Prop) {probe fuel : ℕ}
    (htransfer : ∀ v, ok v (.transfer fuel (e.request probe))) :
    SoundRest ok (e.proc probe fuel) := by
  intro w m hm
  cases e <;> dsimp only [EntryPoint.proc, withdrawBitcoinProc,
    withdrawBitcoinFromMultipleAddressesProc, resyncAndRetry, withdrawRunestoneProc,
    withdrawRunestoneWithFeePaidByReceiverProc, withdrawCombinedProc]
  case bitcoin =>
    exact sound_awaitIf hm fun _ _ h₁ => sound_ite sound_trap (sound_awaitIf h₁ fun _ _ h₂ =>
      sound_afterTransfer htransfer rfl h₂ fun _ _ h₃ => sound_ite sound_trap
        (sound_await h₃ fun _ _ h₄ => sound_retryTransfer htransfer h₄))
  case fromMultipleAddresses =>
    exact sound_awaitIf hm fun _ _ h₀ => sound_awaitIf h₀ fun _ _ h₁ => sound_awaitIf h₁
      fun _ _ h₂ => sound_ite sound_trap (sound_afterTransfer htransfer rfl h₂ fun _ _ h₃ =>
        sound_awaitIf h₃ fun _ _ h₄ => sound_awaitIf h₄ fun _ _ h₅ =>
          sound_ite sound_trap (sound_retryTransfer htransfer h₅))
  case runestone =>
    exact sound_awaitIf hm fun _ _ h₀ => sound_awaitIf h₀ fun _ _ h₁ => sound_ite sound_trap
      (sound_afterTransfer htransfer rfl h₁ fun _ _ h₂ => sound_ite
        (sound_await h₂ fun _ _ h₃ => sound_ite sound_trap (sound_retryTransfer htransfer h₃))
        (sound_retryTransfer htransfer h₂))
  case feePaidByReceiver =>
    exact sound_awaitIf hm fun _ _ h₁ => sound_ite sound_trap (sound_awaitIf h₁ fun _ _ h₂ =>
      sound_afterTransfer htransfer rfl h₂ fun _ _ h₃ => sound_ite
        (sound_await h₃ fun _ _ h₄ => sound_ite sound_trap (sound_retryTransfer htransfer h₄))
        (sound_retryTransfer htransfer h₃))
  case combined =>
    exact sound_await hm fun _ _ h₁ => sound_await h₁ fun _ _ h₂ => sound_awaitIf h₂
      fun _ _ h₃ => sound_afterTransfer htransfer rfl h₃ fun _ _ _ => sound_panic

/-! ### Executions -/

/-- A call suspended at an await. -/
inductive Suspended
  /-- At an await before its transaction is built: the rest of the call, from the pools it finds
  when it resumes. -/
  | rest (k : UtxoManager → Proc)
  /-- At an await of `build_and_submit`, with `n` more to come: an `ecdsa_sign` for each input
  still unsigned, then `bitcoin_send_transaction`. None of them reads or writes the pools. -/
  | submitting (n : ℕ)

/-- `build_and_submit` after a method's end: a transaction of `k` inputs is signed one input at a
time and then sent, so its call is suspended with `k` more awaits to come. -/
def Outcome.submission : Outcome → List Suspended
  | .submitted tt _ => [.submitting tt.spentUtxos.length]
  | _ => []

/-- A call resumed in `build_and_submit`: suspended at its next await, or ended by the send. -/
def Suspended.submittingAfter : ℕ → List Suspended
  | 0 => []
  | n + 1 => [.submitting n]

/-- A suspended call is sound for `ok`: the rest of a call before its build, whatever runs
before it resumes; a call in `build_and_submit` changes nothing. -/
def Suspended.Sound (ok : World → Event → Prop) : Suspended → Prop
  | .rest k => ∀ m built, (k m).Sound ok ⟨m, built⟩
  | .submitting _ => True

theorem Suspended.sound_submission (ok : World → Event → Prop) (o : Outcome) :
    ∀ c ∈ o.submission, c.Sound ok := by
  cases o <;> simp [Outcome.submission, Suspended.Sound]

theorem Suspended.sound_submittingAfter (ok : World → Event → Prop) (n : ℕ) :
    ∀ c ∈ Suspended.submittingAfter n, c.Sound ok := by
  cases n <;> simp [Suspended.submittingAfter, Suspended.Sound]

/-- The canister while update calls run: the world, and the calls suspended at an await. -/
structure Execution where
  world : World
  suspended : List Suspended

/-- What the canister does next. -/
inductive Action
  /-- A call of `entry` begins, with the fee rate `probe` and `fuel` iterations for each fee
  loop, and runs to its first await or its end. -/
  | call (entry : EntryPoint) (probe fuel : ℕ)
  /-- A synchronizer records plain UTXOs of `addr`. -/
  | syncBitcoin (addr : String) (utxos : List Utxo)
  /-- A synchronizer records runic UTXOs of `addr` and `runeid`. -/
  | syncRunic (addr : String) (runeid : RuneId) (utxos : List RunicUtxo)
  /-- The `i`-th suspended call resumes and runs to its next await or its end. -/
  | resume (i : ℕ)

namespace Execution

/-- The execution after a segment that began in its world and ended in `p`. A submitted
transaction is built when its segment ends, at the first await of `build_and_submit`. -/
def settle (s : Execution) : Proc → Execution
  | .done o => ⟨o.settle s.world, s.suspended ++ o.submission⟩
  | .await _ m k => ⟨⟨m, s.world.built⟩, s.suspended ++ [.rest k]⟩

def step (s : Execution) : Action → Execution
  | .call entry probe fuel => s.settle (entry.proc probe fuel s.world.manager)
  | .syncBitcoin addr utxos => ⟨s.world.step (.syncBitcoin addr utxos), s.suspended⟩
  | .syncRunic addr runeid utxos => ⟨s.world.step (.syncRunic addr runeid utxos), s.suspended⟩
  | .resume i =>
    match s.suspended[i]? with
    | some (.rest k) => (Execution.mk s.world (s.suspended.eraseIdx i)).settle (k s.world.manager)
    | some (.submitting n) => ⟨s.world, s.suspended.eraseIdx i ++ Suspended.submittingAfter n⟩
    | none => s

/-- Actions applied in order. -/
def run (s : Execution) (as : List Action) : Execution := as.foldl step s

/-- A synchronization is fresh where it lands; every other action is. -/
def Fresh (s : Execution) : Action → Prop
  | .syncBitcoin addr utxos => s.world.Fresh (.syncBitcoin addr utxos)
  | .syncRunic addr runeid utxos => s.world.Fresh (.syncRunic addr runeid utxos)
  | _ => True

/-- Every synchronization of the run is fresh where it lands. -/
def Admissible : Execution → List Action → Prop
  | _, [] => True
  | s, a :: as => s.Fresh a ∧ (s.step a).Admissible as

/-- `ok` allows the action where it lands: a synchronization's event there, and a call's builder
calls wherever its segments run. -/
def Allows (ok : World → Event → Prop) (s : Execution) : Action → Prop
  | .call entry probe fuel => ∀ v, ok v (.transfer fuel (entry.request probe))
  | .syncBitcoin addr utxos => ok s.world (.syncBitcoin addr utxos)
  | .syncRunic addr runeid utxos => ok s.world (.syncRunic addr runeid utxos)
  | .resume _ => True

/-- Every action of the run is allowed by `ok` where it lands. -/
def AllowedRun (ok : World → Event → Prop) : Execution → List Action → Prop
  | _, [] => True
  | s, a :: as => s.Allows ok a ∧ (s.step a).AllowedRun ok as

/-- Every suspended call is sound for `ok`. -/
def Sound (ok : World → Event → Prop) (s : Execution) : Prop := ∀ c ∈ s.suspended, c.Sound ok

variable {ok : World → Event → Prop} {s : Execution}

theorem sound_nil {w : World} : (Execution.mk w []).Sound ok :=
  fun _ h => absurd h (List.not_mem_nil _)

/-- An admissible run is one whose synchronizations `World.Fresh` allows. -/
theorem Admissible.allowedRun {as : List Action} (h : s.Admissible as) :
    s.AllowedRun (fun v e => v.Fresh e) as := by
  induction as generalizing s with
  | nil => trivial
  | cons a as ih =>
    refine ⟨?_, ih h.2⟩
    cases a
    case call => exact fun _ => trivial
    all_goals exact h.1

/-- A segment that is sound from where it begins is a run of events to where it leaves the
execution, and what it suspends is sound. -/
theorem Sound.settle {p : Proc} (hs : s.Sound ok) (hp : p.Sound ok s.world) :
    s.world.Leads ok (s.settle p).world ∧ (s.settle p).Sound ok := by
  cases p with
  | done o =>
    refine ⟨hp, fun c hc => ?_⟩
    rcases List.mem_append.mp hc with hc | hc
    · exact hs c hc
    · exact Suspended.sound_submission ok o c hc
  | await a m k =>
    refine ⟨hp.1, fun c hc => ?_⟩
    rcases List.mem_append.mp hc with hc | hc
    · exact hs c hc
    · obtain rfl := List.mem_singleton.mp hc
      exact hp.2

/-- Every allowed action is a run of allowed events: a call's first segment and a resumed
call's next one are sound from where they begin, and a synchronization is one event. -/
theorem Sound.step (hs : s.Sound ok) {a : Action} (ha : s.Allows ok a) :
    s.world.Leads ok (s.step a).world ∧ (s.step a).Sound ok := by
  cases a with
  | call entry probe fuel =>
    exact hs.settle (entry.proc_sound ok ha s.world s.world.manager World.Leads.refl)
  | syncBitcoin addr utxos => exact ⟨World.Leads.refl.step ha, hs⟩
  | syncRunic addr runeid utxos => exact ⟨World.Leads.refl.step ha, hs⟩
  | resume i =>
    have hrest : ∀ c ∈ s.suspended.eraseIdx i, c.Sound ok :=
      fun c hc => hs c (List.mem_of_mem_eraseIdx hc)
    dsimp only [Execution.step]
    split
    · rename_i k hc
      exact (show Execution.Sound ok ⟨s.world, s.suspended.eraseIdx i⟩ from hrest).settle
        (hs _ (List.getElem?_mem hc) _ _)
    · rename_i n _
      refine ⟨World.Leads.refl, fun c hc => ?_⟩
      rcases List.mem_append.mp hc with hc | hc
      · exact hrest c hc
      · exact Suspended.sound_submittingAfter ok n c hc
    · exact ⟨World.Leads.refl, hs⟩

theorem Sound.run (hs : s.Sound ok) {as : List Action} (has : s.AllowedRun ok as) :
    s.world.Leads ok (s.run as).world ∧ (s.run as).Sound ok := by
  induction as generalizing s with
  | nil => exact ⟨World.Leads.refl, hs⟩
  | cons a as ih =>
    obtain ⟨h₁, hs₁⟩ := hs.step has.1
    obtain ⟨h₂, hs₂⟩ := ih hs₁ has.2
    exact ⟨h₁.trans h₂, hs₂⟩

end Execution

/-- Every interleaving of update calls at their awaits is a run of the event model of
`OrdWallet.Interleaving`: from a world with no call in flight, when `ok` allows each
synchronization where it lands and each call's builder calls wherever they run, the world the
execution ends in is reached by a run of events that `ok` allows. -/
theorem interleaving_runs_events (ok : World → Event → Prop) {w : World} {as : List Action}
    (has : (Execution.mk w []).AllowedRun ok as) : w.Leads ok ((Execution.mk w []).run as).world :=
  (Execution.sound_nil.run has).1

/-- A world reached from one that keeps the invariant by fresh events keeps it. -/
theorem World.Inv.leads {w w' : World} (hw : w.Inv) (h : w.Leads (fun v e => v.Fresh e) w') :
    w'.Inv := by
  obtain ⟨es, hes, rfl⟩ := h
  exact hw.run (World.admissible_iff_allowed.mpr hes)

/-- Along every interleaving of update calls at their awaits, from a world that keeps the event
model's invariant and with no call in flight, when every synchronization records only outpoints
that no built transaction spends and no other pool holds (which leaves out a UTXO carrying two
runes): no outpoint is an input of two built transactions, no pool holds an input of a built
transaction, and no outpoint sits in two pools. -/
theorem interleaved_calls_keep_inv {w : World} (hw : w.Inv) {as : List Action}
    (has : (Execution.mk w []).Admissible as) : ((Execution.mk w []).run as).world.Inv :=
  hw.leads (Execution.sound_nil.run has.allowedRun).1

/-- `alice` asks for 30 000 sats holding 20 000 and awaits a synchronization; meanwhile `bob`'s
two-sender withdrawal spends her UTXO and his and awaits its first signature; `alice` resumes to a
balance of 0 and traps. -/
def aliceBobInterleaving : List Action :=
  [.call (.bitcoin aliceParty (Address.p2pkh (List.replicate 20 3)) 30000 (some 1000)) 1000 3,
    .call pairWithdrawal 1000 3, .resume 0]

set_option maxRecDepth 8000 in
theorem aliceBobInterleaving_keeps_inv :
    pairWorld.Inv ∧ (Execution.mk pairWorld []).Admissible aliceBobInterleaving ∧
      ((Execution.mk pairWorld []).run aliceBobInterleaving).world.Inv ∧
      ((Execution.mk pairWorld []).run (aliceBobInterleaving.take 2)).suspended.length = 2 ∧
      ((Execution.mk pairWorld []).run aliceBobInterleaving).world.built = [[⟨1, 0⟩, ⟨2, 0⟩]] := by
  have has : (Execution.mk pairWorld []).Admissible aliceBobInterleaving :=
    ⟨trivial, trivial, trivial, trivial⟩
  exact ⟨pairWorld_inv, has, interleaved_calls_keep_inv pairWorld_inv has, by decide, by decide⟩

/-- The interleaving above is a run of fresh events from `pairWorld`. -/
theorem aliceBobInterleaving_runs_events :
    (Execution.mk pairWorld []).AllowedRun (fun v e => v.Fresh e) aliceBobInterleaving ∧
      pairWorld.Leads (fun v e => v.Fresh e)
        ((Execution.mk pairWorld []).run aliceBobInterleaving).world := by
  have has : (Execution.mk pairWorld []).AllowedRun (fun v e => v.Fresh e) aliceBobInterleaving :=
    ⟨fun _ => trivial, fun _ => trivial, trivial, trivial⟩
  exact ⟨has, interleaving_runs_events _ has⟩

/-- An action that begins a call of a method that moves BTC alone, or begins no call. -/
def Action.MovesBitcoin : Action → Prop
  | .call entry _ _ => entry.MovesBitcoin
  | _ => True

/-- With calls of methods that move BTC alone, every action is a run of events that lose
nothing, synchronizations included. -/
theorem Execution.allowedRun_lossless {s : Execution} {as : List Action}
    (has : ∀ a ∈ as, a.MovesBitcoin) : s.AllowedRun (fun _ e => e.Lossless) as := by
  induction as generalizing s with
  | nil => trivial
  | cons a as ih =>
    refine ⟨?_, ih fun a' ha' => has a' (List.mem_cons_of_mem _ ha')⟩
    cases a
    case call entry probe fuel =>
      exact fun _ => EntryPoint.request_isBitcoin (has _ (List.mem_cons_self _ _)) probe
    all_goals trivial

/-- Along every interleaving of calls of `withdraw_bitcoin` and
`withdraw_bitcoin_from_multiple_addresses` at their awaits, with any synchronizations, from a
world with no call in flight, no update is lost: an outpoint that a pool held or a built
transaction spent is, at the end, still held by a pool or spent by a built transaction. A call
that resumes reads the pools as the calls in between left them, and a trap rolls back its own
segment alone. -/
theorem interleaved_bitcoin_calls_lose_nothing {w : World} {as : List Action}
    (has : ∀ a ∈ as, a.MovesBitcoin) {o : OutPoint} (ho : w.Holds o) :
    ((Execution.mk w []).run as).world.Holds o := by
  obtain ⟨es, hes, hrun⟩ := (Execution.sound_nil.run (Execution.allowedRun_lossless has)).1
  exact hrun ▸ ho.run (World.Allowed.forall hes)

/-- `alice`'s UTXO, which `bob`'s withdrawal spends while her call awaits, is not lost: it is an
input of the transaction built. -/
theorem aliceBobInterleaving_loses_nothing :
    (∀ a ∈ aliceBobInterleaving, a.MovesBitcoin) ∧ pairWorld.Holds ⟨1, 0⟩ ∧
      ((Execution.mk pairWorld []).run aliceBobInterleaving).world.Holds ⟨1, 0⟩ := by
  have has : ∀ a ∈ aliceBobInterleaving, a.MovesBitcoin := by
    simp only [aliceBobInterleaving, List.mem_cons, List.mem_singleton, List.not_mem_nil, or_false]
    rintro _ (rfl | rfl | rfl) <;> trivial
  have ho : pairWorld.Holds ⟨1, 0⟩ := .inl ⟨.plain "alice", by decide⟩
  exact ⟨has, ho, interleaved_bitcoin_calls_lose_nothing has ho⟩

/-! ### Run alone, an execution is the method -/

/-- The outcome, when it traps or panics, restores `m₀`. -/
def Outcome.Restores (m₀ : UtxoManager) : Outcome → Prop
  | .trap _ m => m = m₀
  | .panic m => m = m₀
  | _ => True

namespace Proc

/-- Every trap and panic of the process restores the pools its segment began with: `m₀` for the
current segment, the pools found on resuming for each later one. -/
def RollsBack : Proc → UtxoManager → Prop
  | .done o, m₀ => o.Restores m₀
  | .await _ _ k, _ => ∀ m', (k m').RollsBack m'

variable {m₀ : UtxoManager}

@[simp] theorem awaitIf_false {a : Await} {m : UtxoManager} {k : UtxoManager → Proc} :
    awaitIf false a m k = k m := rfl

theorem rollsBack_awaitIf {c : Bool} {a : Await} {k : UtxoManager → Proc}
    (hk : ∀ m', (k m').RollsBack m') : (awaitIf c a m₀ k).RollsBack m₀ := by
  cases c
  · exact hk m₀
  · exact hk

theorem rollsBack_ite {c : Prop} [Decidable c] {p q : Proc} (hp : p.RollsBack m₀)
    (hq : q.RollsBack m₀) : (if c then p else q).RollsBack m₀ := by
  split
  · exact hp
  · exact hq

theorem rollsBack_afterTransfer {ε : Type} {r : LoopEnd ε TransactionType}
    {onError : ε → UtxoManager → Proc}
    (hk : ∀ e m', r = .returned (.error e) m' → (onError e m').RollsBack m₀) :
    (afterTransfer r m₀ onError).RollsBack m₀ := by
  rcases r with ⟨_ | _, _⟩ | _ | _
  · exact hk _ _ rfl
  all_goals trivial

theorem rollsBack_retryTransfer {req : Request} {fuel : ℕ} {m : UtxoManager} :
    (Proc.done (retryTransfer fuel req m₀ m)).RollsBack m₀ := by
  rw [done_retryTransfer]
  exact rollsBack_afterTransfer fun _ _ _ => rfl

end Proc

open Proc in
/-- The `Err` arm of the two-sender method, entered with the pools it failed from, rolls back to
the last synchronization it awaited, or to those pools when it awaited none. -/
theorem resyncAndRetry_rollsBack {fuel : ℕ} {principal0 caller : Party}
    {arg : MultiSenderTxn.MultiSendTransactionArgument} (resynced0 resynced1 : Bool)
    {required : ℕ × ℕ} {m₂ : UtxoManager} :
    (resyncAndRetry fuel principal0 caller arg resynced0 resynced1 required m₂ m₂).RollsBack
      m₂ := by
  unfold resyncAndRetry
  cases resynced0 <;> cases resynced1
  · simp only [awaitIf_false]
    exact rollsBack_ite rfl rollsBack_retryTransfer
  all_goals exact rollsBack_awaitIf fun _ => rollsBack_awaitIf fun _ =>
    rollsBack_ite rfl rollsBack_retryTransfer

open Proc in
/-- The commits of every method are the platform's rollbacks: each trap and panic restores the
pools its segment began with. -/
theorem EntryPoint.proc_rollsBack (e : EntryPoint) (probe fuel : ℕ) (m : UtxoManager) :
    (e.proc probe fuel m).RollsBack m := by
  cases e <;> dsimp only [EntryPoint.proc, withdrawBitcoinProc,
    withdrawBitcoinFromMultipleAddressesProc, withdrawRunestoneProc,
    withdrawRunestoneWithFeePaidByReceiverProc, withdrawCombinedProc]
  case bitcoin =>
    exact rollsBack_awaitIf fun _ => rollsBack_ite rfl (rollsBack_awaitIf fun _ =>
      rollsBack_afterTransfer fun _ _ _ => rollsBack_ite rfl fun _ => rollsBack_retryTransfer)
  case fromMultipleAddresses =>
    refine rollsBack_awaitIf fun _ => rollsBack_awaitIf fun _ => rollsBack_awaitIf fun _ =>
      rollsBack_ite rfl (rollsBack_afterTransfer fun _ _ hr => ?_)
    obtain rfl := Request.transfer_error_of_isBitcoin
      (show (Request.legoBitcoin _).IsBitcoin from trivial)
      (LoopEnd.mapError_eq_returned_error.mpr ⟨_, hr, rfl⟩)
    exact resyncAndRetry_rollsBack _ _
  case runestone =>
    exact rollsBack_awaitIf fun _ => rollsBack_awaitIf fun _ => rollsBack_ite rfl
      (rollsBack_afterTransfer fun _ _ _ =>
        rollsBack_ite (fun _ => rollsBack_ite rfl rollsBack_retryTransfer) rollsBack_retryTransfer)
  case feePaidByReceiver =>
    exact rollsBack_awaitIf fun _ => rollsBack_ite rfl (rollsBack_awaitIf fun _ =>
      rollsBack_afterTransfer fun _ _ _ =>
        rollsBack_ite (fun _ => rollsBack_ite rfl rollsBack_retryTransfer) rollsBack_retryTransfer)
  case combined =>
    exact fun _ _ => rollsBack_awaitIf fun _ => rollsBack_afterTransfer fun _ _ _ => rfl

/-- An action of a call run alone: a synchronization, or resuming the one suspended call. -/
def Action.Alone : Action → Prop
  | .call .. => False
  | .resume i => i = 0
  | _ => True

namespace Execution

@[simp] theorem run_nil (s : Execution) : s.run [] = s := rfl

@[simp] theorem run_cons (s : Execution) (a : Action) (as : List Action) :
    s.run (a :: as) = (s.step a).run as := rfl

theorem run_append (s : Execution) (as bs : List Action) : s.run (as ++ bs) = (s.run as).run bs :=
  List.foldl_append _ _ _ _

/-- Synchronization events of one address are recorded by synchronization actions. -/
theorem exists_run_syncs {addr : String} {es : List Event} (hes : ∀ e ∈ es, e.SyncOf addr)
    (s : Execution) :
    ∃ as, (∀ a ∈ as, a.Alone) ∧ s.run as = ⟨s.world.run es, s.suspended⟩ := by
  induction es generalizing s with
  | nil => exact ⟨[], fun _ h => absurd h (List.not_mem_nil _), rfl⟩
  | cons e es ih =>
    obtain ⟨as, has, hrun⟩ :=
      ih (fun e' he' => hes e' (List.mem_cons_of_mem _ he')) ⟨s.world.step e, s.suspended⟩
    cases e with
    | syncBitcoin a utxos =>
      exact ⟨.syncBitcoin a utxos :: as, List.forall_mem_cons.mpr ⟨trivial, has⟩, hrun⟩
    | syncRunic a r utxos =>
      exact ⟨.syncRunic a r utxos :: as, List.forall_mem_cons.mpr ⟨trivial, has⟩, hrun⟩
    | transfer => exact (hes _ (List.mem_cons_self _ _)).elim

/-- What a synchronizer does at an await is recorded by synchronization actions. -/
theorem exists_run_await {sync : String → ℕ → UtxoManager → UtxoManager}
    (hsync : Synchronizer sync) (a : Await) (m : UtxoManager) (built : List (List OutPoint))
    (suspended : List Suspended) :
    ∃ as, (∀ a ∈ as, a.Alone) ∧
      (Execution.mk ⟨m, built⟩ suspended).run as =
        ⟨⟨a.apply sync m, built⟩, suspended⟩ := by
  cases a with
  | sync addr target =>
    obtain ⟨es, hes, hrun⟩ := hsync addr target m
    obtain ⟨as, has, h⟩ := exists_run_syncs hes ⟨⟨m, built⟩, suspended⟩
    refine ⟨as, has, ?_⟩
    rw [h]
    exact congrArg (Execution.mk · suspended) (hrun built)
  | feeProbe => exact ⟨[], fun _ h => absurd h (List.not_mem_nil _), rfl⟩

end Execution

/-- A call in `build_and_submit` with `n` more awaits to come ends after `n + 1` resumes. -/
theorem Execution.run_resume_submitting (w : World) (n : ℕ) :
    (Execution.mk w [.submitting n]).run (List.replicate (n + 1) (.resume 0)) = ⟨w, []⟩ := by
  induction n with
  | zero => rfl
  | succ n ih =>
    rw [List.replicate_succ, Execution.run_cons]
    exact ih

/-- A process whose traps restore the pools of their segments, begun in `w` and run alone with a
synchronizer to the world `w'`, takes the execution from `w` to `w'`: at each synchronization
the synchronizer's events, and at every await the resume. -/
theorem Proc.execution_runs {sync : String → ℕ → UtxoManager → UtxoManager}
    (hsync : Synchronizer sync) (p : Proc) :
    ∀ w w', p.RollsBack w.manager → (p.runWith sync).world w.built = some w' →
      ∃ as, (∀ a ∈ as, a.Alone) ∧ ((Execution.mk w []).settle p).run as = ⟨w', []⟩ := by
  induction p with
  | done o =>
    intro w w' hr h
    cases o with
    | submitted tt m =>
      cases h
      exact ⟨_, fun _ ha => (List.eq_of_mem_replicate ha ▸ rfl : Action.Alone _),
        Execution.run_resume_submitting _ _⟩
    | trap msg m =>
      cases h
      subst hr
      exact ⟨[], fun _ h => absurd h (List.not_mem_nil _), rfl⟩
    | panic m =>
      cases h
      subst hr
      exact ⟨[], fun _ h => absurd h (List.not_mem_nil _), rfl⟩
    | outOfFuel => cases h
  | await a m k ih =>
    intro w w' hr h
    obtain ⟨as₁, hal₁, hrun₁⟩ := Execution.exists_run_await hsync a m w.built [.rest k]
    obtain ⟨as₂, hal₂, hrun₂⟩ :=
      ih (a.apply sync m) ⟨a.apply sync m, w.built⟩ w' (hr _) h
    refine ⟨as₁ ++ .resume 0 :: as₂, fun a ha => ?_, ?_⟩
    · rcases List.mem_append.mp ha with ha | ha
      · exact hal₁ a ha
      · exact (List.forall_mem_cons.mpr ⟨rfl, hal₂⟩ :
          ∀ a ∈ Action.resume 0 :: as₂, a.Alone) a ha
    · rw [Execution.run_append]
      simp only [Execution.settle, List.nil_append]
      rw [hrun₁]
      exact hrun₂

/-- Scheduled one call at a time, the execution is the method model: every call that ends, with
a synchronizer, takes the execution from its world to the world `World.call` gives, by its own
segments and its synchronizer's recordings. So a trap's rollback to where its segment began is
exactly what each method commits, and the execution refines the calls of `OrdWallet.Canister`. -/
theorem call_executes_alone {w w' : World} {c : Call} (hsync : Synchronizer c.sync)
    (h : w.call c = some w') :
    ∃ as, (∀ a ∈ as, a.Alone) ∧
      (Execution.mk w []).run (.call c.entry c.probe c.fuel :: as) = ⟨w', []⟩ := by
  rw [World.call, ← c.entry.proc_runWith] at h
  exact (c.entry.proc c.probe c.fuel w.manager).execution_runs hsync w w'
    (c.entry.proc_rollsBack _ _ _) h

/-- `alice` withdraws 30 000 sats holding 20 000, a synchronizer finding 10 100 more each time. -/
def toppedUpCall : Call :=
  ⟨.bitcoin aliceParty (Address.p2pkh (List.replicate 20 3)) 30000 (some 1000), topUp, 1000, 3⟩

set_option maxRecDepth 8000 in
/-- The call awaits a synchronization twice, and the execution that records each one before
resuming ends where the call does. -/
theorem toppedUpCall_executes_alone :
    Synchronizer toppedUpCall.sync ∧ ∃ w', pairWorld.call toppedUpCall = some w' ∧
      ∃ as, (∀ a ∈ as, a.Alone) ∧ (Execution.mk pairWorld []).run
        (.call toppedUpCall.entry toppedUpCall.probe toppedUpCall.fuel :: as) = ⟨w', []⟩ := by
  have hsync : Synchronizer toppedUpCall.sync := fun addr _ _ =>
    ⟨[.syncBitcoin addr [⟨⟨6, 0⟩, 10100⟩]], fun _ h => List.mem_singleton.mp h ▸ rfl,
      fun _ => rfl⟩
  obtain ⟨w', hw'⟩ := Option.isSome_iff_exists.mp
    (by decide : (pairWorld.call toppedUpCall).isSome = true)
  exact ⟨hsync, w', hw', call_executes_alone hsync hw'⟩

/-! ### With a named fee rate, no await between the balance and the build -/

/-- With a fee rate named by the caller, `withdraw_bitcoin` awaits nothing between reading
`current_balance` and its first build, so the check `utxo_synced && required_value <
current_balance` after a failed build never holds: the build failed asking for more than the
balance of the pools it began from, which are the pools `current_balance` was read from. Whatever
pools the call finds when it resumes from its synchronization, once the balance check passes, a
failed first build is followed by an await of a synchronization for what it asked and a second
build. -/
theorem withdrawBitcoin_resyncs_after_failure {probe fuel : ℕ} {caller : Party}
    {toAddress : Address} {amount feePerVbytes : ℕ} {m m₁ m₂ : UtxoManager} {requiredValue : ℕ}
    (hcheck : ¬(m.getBitcoinBalance caller.addr < amount ∧
      m₁.getBitcoinBalance caller.addr < amount))
    (hfail : PlainTxn.transfer fuel caller.addr caller.account caller.address toAddress amount true
      feePerVbytes m₁ = .returned (.error requiredValue) m₂) :
    ∃ k, withdrawBitcoinProc probe fuel caller toAddress amount (some feePerVbytes) m =
        .awaitIf (decide (m.getBitcoinBalance caller.addr < amount)) (.sync caller.addr amount)
          m k ∧
      k m₁ = .await (.sync caller.addr requiredValue) m₂ fun m₃ =>
        .done (retryTransfer fuel (.bitcoin caller.addr caller.account caller.address toAddress
          amount true feePerVbytes) m₃ m₃) := by
  have hshort := PlainTxn.balance_lt_of_transfer_error hfail
  refine ⟨_, rfl, ?_⟩
  simp only [Option.isNone_some, Proc.awaitIf_false, Option.getD_some, hfail, Proc.afterTransfer,
    Bool.and_eq_true, decide_eq_true_eq, hcheck, if_false, Nat.not_lt.mpr hshort.le, and_false]

set_option maxRecDepth 4000 in
/-- `alice` withdraws 30 000 sats at 1 000 millisatoshi per byte holding 20 000: the
synchronization brings her to 30 100, the build at the recomputed fee asks for 30 340, and the
call awaits a second synchronization. -/
theorem toppedUpWithdrawal_resyncs :
    ∃ requiredValue m₂,
      ¬(pairPools.getBitcoinBalance aliceParty.addr < 30000 ∧
        (topUp aliceParty.addr 30000 pairPools).getBitcoinBalance aliceParty.addr < 30000) ∧
      PlainTxn.transfer 3 aliceParty.addr aliceParty.account aliceParty.address
          (Address.p2pkh (List.replicate 20 3)) 30000 true 1000
          (topUp aliceParty.addr 30000 pairPools) = .returned (.error requiredValue) m₂ ∧
      ∃ k, withdrawBitcoinProc 1000 3 aliceParty (Address.p2pkh (List.replicate 20 3)) 30000
          (some 1000) pairPools =
          .awaitIf (decide (pairPools.getBitcoinBalance aliceParty.addr < 30000))
            (.sync aliceParty.addr 30000) pairPools k ∧
        k (topUp aliceParty.addr 30000 pairPools) =
          .await (.sync aliceParty.addr requiredValue) m₂ fun m₃ =>
            .done (retryTransfer 3 (.bitcoin aliceParty.addr aliceParty.account aliceParty.address
              (Address.p2pkh (List.replicate 20 3)) 30000 true 1000) m₃ m₃) := by
  have hcheck : ¬(pairPools.getBitcoinBalance aliceParty.addr < 30000 ∧
      (topUp aliceParty.addr 30000 pairPools).getBitcoinBalance aliceParty.addr < 30000) := by
    decide
  obtain ⟨m₂, h⟩ := LoopEnd.error?_eq_some.mp (by decide : (PlainTxn.transfer 3 aliceParty.addr
    aliceParty.account aliceParty.address (Address.p2pkh (List.replicate 20 3)) 30000 true 1000
    (topUp aliceParty.addr 30000 pairPools)).error? = some 30340)
  exact ⟨30340, m₂, hcheck, h, withdrawBitcoin_resyncs_after_failure hcheck h⟩

end OrdWallet
