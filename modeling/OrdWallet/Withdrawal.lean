import OrdWallet.Builder.Plain
import OrdWallet.Builder.MultiSender
import OrdWallet.Builder.Runestone
import OrdWallet.Builder.Combined

/-!
# The four builder calls and the UTXOs they take

The entry points of `lib.rs` call one of four `transfer`s. `Request` names the call with its
arguments, `Shortfall` the four error descriptors, and `Request.transfer` runs the call.

`Takes m m' plain runic` says that `m'` is `m` after each pool handed out, from its front, the
listed UTXOs. Every call that returns leaves the manager so; on success the lists are those the
result keeps (`TransactionType.plainDrawn`, `runicDrawn`): nothing is lost, duplicated or moved
between pools. On failure only the plain and the two-sender calls give everything back.
-/

namespace OrdWallet

/-- `m'` is `m` after each plain pool handed out `plain a` and each runic pool `runic a r` from
its front. -/
def Takes (m m' : UtxoManager) (plain : String → List Utxo)
    (runic : String → RuneId → List RunicUtxo) : Prop :=
  (∀ a, plain a ++ m'.bitcoin a = m.bitcoin a) ∧ ∀ a r, runic a r ++ m'.runic a r = m.runic a r

/-- The UTXOs `utxos` drawn from the plain pool of `addr` alone. -/
def plainAt (addr : String) (utxos : List Utxo) (a : String) : List Utxo :=
  if a = addr then utxos else []

/-- The UTXOs `utxos` drawn from the runic pool of `addr` and `runeid` alone. -/
def runicAt (addr : String) (runeid : RuneId) (utxos : List RunicUtxo) (a : String) (r : RuneId) :
    List RunicUtxo :=
  if a = addr ∧ r = runeid then utxos else []

namespace Takes

variable {m m₁ m₂ m' : UtxoManager} {p p' : String → List Utxo}
  {r r' : String → RuneId → List RunicUtxo}

theorem refl (m : UtxoManager) : Takes m m (fun _ => []) (fun _ _ => []) :=
  ⟨fun _ => rfl, fun _ _ => rfl⟩

/-- Handing out in two steps hands out both lists, the first step's first. -/
theorem trans (h₁ : Takes m m₁ p r) (h₂ : Takes m₁ m₂ p' r') :
    Takes m m₂ (fun a => p a ++ p' a) (fun a b => r a b ++ r' a b) :=
  ⟨fun a => by rw [List.append_assoc, h₂.1, h₁.1], fun a b => by rw [List.append_assoc, h₂.2, h₁.2]⟩

theorem congr (h : Takes m m' p r) (hp : ∀ a, p a = p' a) (hr : ∀ a b, r a b = r' a b) :
    Takes m m' p' r' :=
  ⟨fun a => hp a ▸ h.1 a, fun a b => hr a b ▸ h.2 a b⟩

/-- Handing out nothing leaves the manager as it was. -/
theorem eq_of_nil (h : Takes m m' (fun _ => []) (fun _ _ => [])) : m' = m :=
  UtxoManager.ext (funext h.1) (funext fun a => funext (h.2 a))

end Takes

section Stages

variable {ε : Type} {addr : String} {runeid : RuneId} {target : ℕ} {err : ε} {m m' : UtxoManager}

theorem takes_dropBitcoin {u : List Utxo} (h : u ++ (m.bitcoin addr).drop u.length = m.bitcoin addr) :
    Takes m (m.dropBitcoin addr u.length) (plainAt addr u) (fun _ _ => []) := by
  refine ⟨fun a => ?_, fun _ _ => rfl⟩
  by_cases ha : a = addr
  · subst ha
    simpa [plainAt] using h
  · simp [plainAt, ha]

theorem takes_dropRunic {u : List RunicUtxo}
    (h : u ++ (m.runic addr runeid).drop u.length = m.runic addr runeid) :
    Takes m (m.dropRunic addr runeid u.length) (fun _ => []) (runicAt addr runeid u) := by
  refine ⟨fun _ => rfl, fun a r => ?_⟩
  by_cases har : a = addr ∧ r = runeid
  · obtain ⟨rfl, rfl⟩ := har
    simpa [runicAt] using h
  · simp [runicAt, har]

theorem takes_selectBitcoin {utxos : List Utxo} {total : ℕ}
    (h : selectBitcoin addr target err m = (.ok (utxos, total), m')) :
    Takes m m' (plainAt addr utxos) (fun _ _ => []) := by
  obtain ⟨-, -, rfl, hpre, -⟩ := selectBitcoin_ok h
  exact takes_dropBitcoin hpre

theorem takes_selectRunic {done : ℕ → Bool} {utxos : List RunicUtxo} {total btc : ℕ}
    (h : selectRunic addr runeid done target err m = (.ok (utxos, total, btc), m')) :
    Takes m m' (fun _ => []) (runicAt addr runeid utxos) := by
  obtain ⟨-, -, -, rfl, hpre, -⟩ := selectRunic_ok h
  exact takes_dropRunic hpre

end Stages

/-- The error descriptor of each builder. -/
inductive Shortfall
  | bitcoin (required : ℕ)
  | legoBitcoin (required0 required1 : ℕ)
  | runestone (runeAmount fee : ℕ)
  | combined (runeAmount btcAmount fee : ℕ)
  deriving DecidableEq

/-- The four builder calls of the entry points, with their arguments. -/
inductive Request
  | bitcoin (addr : String) (account : Account) (fromAddress toAddress : Address) (amount : ℕ)
      (paidBySender : Bool) (feePerVbytes : ℕ)
  | legoBitcoin (arg : MultiSenderTxn.MultiSendTransactionArgument)
  | runestone (args : RunestoneTxn.RuneTransferArgs)
  | combined (req : CombinedTxn.CombinedTransactionRequest)

/-- The errors of a finished loop, transformed. -/
def LoopEnd.mapError {ε ε' α : Type} (f : ε → ε') : LoopEnd ε α → LoopEnd ε' α
  | .returned (.error e) m => .returned (.error (f e)) m
  | .returned (.ok a) m => .returned (.ok a) m
  | .trapped => .trapped
  | .outOfFuel => .outOfFuel

section MapError

variable {ε ε' α : Type} {f : ε → ε'} {e : LoopEnd ε α} {m : UtxoManager}

theorem LoopEnd.mapError_eq_returned_ok {a : α} :
    e.mapError f = .returned (.ok a) m ↔ e = .returned (.ok a) m := by
  match e with
  | .returned (.error _) _ => simp [LoopEnd.mapError]
  | .returned (.ok _) _ => simp [LoopEnd.mapError]
  | .trapped => simp [LoopEnd.mapError]
  | .outOfFuel => simp [LoopEnd.mapError]

theorem LoopEnd.mapError_eq_returned_error {x : ε'} :
    e.mapError f = .returned (.error x) m ↔ ∃ x₀, e = .returned (.error x₀) m ∧ f x₀ = x := by
  match e with
  | .returned (.error x₀) _ =>
    simp only [LoopEnd.mapError, LoopEnd.returned.injEq, Except.error.injEq]
    exact ⟨fun ⟨hx, hm⟩ => ⟨x₀, ⟨rfl, hm⟩, hx⟩, fun ⟨_, ⟨h₀, hm⟩, hx⟩ => ⟨h₀ ▸ hx, hm⟩⟩
  | .returned (.ok _) _ => simp [LoopEnd.mapError]
  | .trapped => simp [LoopEnd.mapError]
  | .outOfFuel => simp [LoopEnd.mapError]

end MapError

section Package

variable {ε ε' α β : Type} {o : Option (Except ε α × UtxoManager)} {f : ε → ε'} {g : α → β}
  {m' : UtxoManager}

/-- A repackaged build succeeded exactly when the build did. -/
theorem map_build_eq_ok {b : β} :
    (o.map fun (r, m) => ((r.mapError f).map g, m)) = some (.ok b, m') ↔
      ∃ a, o = some (.ok a, m') ∧ g a = b := by
  rcases o with _ | ⟨_ | a, m⟩
  · simp
  · simp [Except.map, Except.mapError]
  · simp only [Option.map_some', Option.some.injEq, Prod.mk.injEq, Except.map, Except.mapError,
      Except.ok.injEq]
    exact ⟨fun ⟨hb, hm⟩ => ⟨a, ⟨rfl, hm⟩, hb⟩, fun ⟨_, ⟨ha, hm⟩, hb⟩ => ⟨ha ▸ hb, hm⟩⟩

/-- A repackaged build failed exactly when the build did. -/
theorem map_build_eq_error {s : ε'} :
    (o.map fun (r, m) => ((r.mapError f).map g, m)) = some (.error s, m') ↔
      ∃ e, o = some (.error e, m') ∧ f e = s := by
  rcases o with _ | ⟨e | _, m⟩
  · simp
  · simp only [Option.map_some', Option.some.injEq, Prod.mk.injEq, Except.map, Except.mapError,
      Except.error.injEq]
    exact ⟨fun ⟨hb, hm⟩ => ⟨e, ⟨rfl, hm⟩, hb⟩, fun ⟨_, ⟨ha, hm⟩, hb⟩ => ⟨ha ▸ hb, hm⟩⟩
  · simp [Except.map, Except.mapError]

end Package

/-- Run a builder call for at most `fuel` fee-loop iterations. -/
def Request.transfer (fuel : ℕ) : Request → UtxoManager → LoopEnd Shortfall TransactionType
  | .bitcoin addr account fromAddress toAddress amount paidBySender feePerVbytes, m =>
    (PlainTxn.transfer fuel addr account fromAddress toAddress amount paidBySender feePerVbytes
      m).mapError .bitcoin
  | .legoBitcoin arg, m =>
    (MultiSenderTxn.transfer fuel arg m).mapError fun e => .legoBitcoin e.1 e.2
  | .runestone args, m =>
    (RunestoneTxn.transfer fuel args m).mapError fun e => .runestone e.1 e.2
  | .combined req, m =>
    (CombinedTxn.transfer fuel req m).mapError fun e => .combined e.1 e.2.1 e.2.2

namespace Request

/-- The fee rate of a builder call. -/
def feePerVbytes : Request → ℕ
  | .bitcoin _ _ _ _ _ _ feePerVbytes => feePerVbytes
  | .legoBitcoin arg => arg.feePerVbytes
  | .runestone args => args.feePerVbytes
  | .combined req => req.feePerVbytes

/-- One fee-loop iteration of a builder call at fee `fee`: the transaction it assembles and the
result its `transfer` returns when `fee` is the recomputed fee. -/
def build (fee : ℕ) : Request → UtxoManager →
    Option (Except Shortfall (Transaction × TransactionType) × UtxoManager)
  | .bitcoin addr account fromAddress toAddress amount paidBySender _, m =>
    (PlainTxn.build addr fromAddress toAddress amount paidBySender fee m).map fun (r, m) =>
      ((r.mapError .bitcoin).map fun (txn, utxos) =>
        (txn, .bitcoin addr utxos account fromAddress txn), m)
  | .legoBitcoin arg, m =>
    (MultiSenderTxn.build arg fee m).map fun (r, m) =>
      ((r.mapError fun e => .legoBitcoin e.1 e.2).map fun (txn, utxos0, utxos1) =>
        (txn, .legoBitcoin arg.addr0 arg.addr1 arg.account0 arg.account1 arg.address0 arg.address1
          utxos0 utxos1 arg.amount0 arg.amount1 fee arg.paidBySender arg.receiver), m)
  | .runestone args, m =>
    (RunestoneTxn.build args fee m).map fun (r, m) =>
      ((r.mapError fun e => .runestone e.1 e.2).map fun (txn, runicUtxos, feeUtxos) =>
        (txn, .runestone args.senderAddr args.receiverAddr args.senderAccount args.receiverAccount
          args.runeid args.amount fee runicUtxos feeUtxos args.paidBySender args.senderAddress
          args.receiverAddress (args.postage.getD defaultPostage)), m)
  | .combined req, m =>
    (CombinedTxn.build req fee m).map fun (r, m) =>
      ((r.mapError fun e => .combined e.1 e.2.1 e.2.2).map fun (txn, runicUtxos, btcUtxos, feeUtxos) =>
        (txn, .combined req.fromAddr req.receiverAddr req.senderAddress req.receiverAddress
          req.senderAccount req.receiverAccount runicUtxos btcUtxos feeUtxos req.runeid
          req.runeAmount req.btcAmount fee (req.postage.getD defaultPostage) req.paidBySender), m)

/-- A successful iteration of a builder call is a successful build of its builder, whose result
the call packages with its own arguments. -/
theorem build_eq_ok {fee : ℕ} {req : Request} {m m' : UtxoManager} {txn : Transaction}
    {tt : TransactionType} (h : req.build fee m = some (.ok (txn, tt), m')) :
    match req with
    | .bitcoin addr account fromAddress toAddress amount paidBySender _ =>
      ∃ utxos, PlainTxn.build addr fromAddress toAddress amount paidBySender fee m =
          some (.ok (txn, utxos), m') ∧
        tt = .bitcoin addr utxos account fromAddress txn
    | .legoBitcoin arg =>
      ∃ u0 u1, MultiSenderTxn.build arg fee m = some (.ok (txn, u0, u1), m') ∧
        tt = .legoBitcoin arg.addr0 arg.addr1 arg.account0 arg.account1 arg.address0 arg.address1
          u0 u1 arg.amount0 arg.amount1 fee arg.paidBySender arg.receiver
    | .runestone args =>
      ∃ runicUtxos feeUtxos,
        RunestoneTxn.build args fee m = some (.ok (txn, runicUtxos, feeUtxos), m') ∧
        tt = .runestone args.senderAddr args.receiverAddr args.senderAccount args.receiverAccount
          args.runeid args.amount fee runicUtxos feeUtxos args.paidBySender args.senderAddress
          args.receiverAddress (args.postage.getD defaultPostage)
    | .combined req =>
      ∃ runicUtxos btcUtxos feeUtxos,
        CombinedTxn.build req fee m = some (.ok (txn, runicUtxos, btcUtxos, feeUtxos), m') ∧
        tt = .combined req.fromAddr req.receiverAddr req.senderAddress req.receiverAddress
          req.senderAccount req.receiverAccount runicUtxos btcUtxos feeUtxos req.runeid
          req.runeAmount req.btcAmount fee (req.postage.getD defaultPostage) req.paidBySender := by
  cases req <;> rw [build] at h
  case bitcoin =>
    obtain ⟨⟨_, utxos⟩, hb, ⟨⟩⟩ := map_build_eq_ok.mp h
    exact ⟨utxos, hb, rfl⟩
  case legoBitcoin =>
    obtain ⟨⟨_, u0, u1⟩, hb, ⟨⟩⟩ := map_build_eq_ok.mp h
    exact ⟨u0, u1, hb, rfl⟩
  case runestone =>
    obtain ⟨⟨_, runicUtxos, feeUtxos⟩, hb, ⟨⟩⟩ := map_build_eq_ok.mp h
    exact ⟨runicUtxos, feeUtxos, hb, rfl⟩
  case combined =>
    obtain ⟨⟨_, runicUtxos, btcUtxos, feeUtxos⟩, hb, ⟨⟩⟩ := map_build_eq_ok.mp h
    exact ⟨runicUtxos, btcUtxos, feeUtxos, hb, rfl⟩

end Request

namespace TransactionType

/-- The plain UTXOs a result lists as drawn, by the address whose pool they came from: `utxos`
from the sender, `utxos0` and `utxos1` from `addr0` and `addr1`, `fee_utxos` from the fee payer,
`btc_utxos` from the sender. -/
def plainDrawn : TransactionType → String → List Utxo
  | bitcoin addr utxos _ _ _ => plainAt addr utxos
  | legoBitcoin addr0 addr1 _ _ _ _ utxos0 utxos1 _ _ _ _ _ => fun a =>
    plainAt addr0 utxos0 a ++ plainAt addr1 utxos1 a
  | runestone senderAddr receiverAddr _ _ _ _ _ _ feeUtxos paidBySender _ _ _ =>
    plainAt (if paidBySender then senderAddr else receiverAddr) feeUtxos
  | combined senderAddr receiverAddr _ _ _ _ _ btcUtxos feeUtxos _ _ _ _ _ _ => fun a =>
    plainAt senderAddr btcUtxos a ++ plainAt receiverAddr feeUtxos a

/-- The runic UTXOs a result lists as drawn: `runic_utxos` from the sender's pool of the rune. -/
def runicDrawn : TransactionType → String → RuneId → List RunicUtxo
  | runestone senderAddr _ _ _ runeid _ _ runicUtxos _ _ _ _ _ => runicAt senderAddr runeid runicUtxos
  | combined senderAddr _ _ _ _ _ runicUtxos _ _ runeid _ _ _ _ _ => runicAt senderAddr runeid runicUtxos
  | _ => fun _ _ => []

/-- The UTXOs a result lists as drawn, in the order of the transaction's inputs. -/
def spentUtxos : TransactionType → List Utxo
  | bitcoin _ utxos _ _ _ => utxos
  | legoBitcoin _ _ _ _ _ _ utxos0 utxos1 _ _ _ _ _ => utxos0 ++ utxos1
  | runestone _ _ _ _ _ _ _ runicUtxos feeUtxos _ _ _ _ => runicUtxos.map (·.utxo) ++ feeUtxos
  | combined _ _ _ _ _ _ runicUtxos btcUtxos feeUtxos _ _ _ _ _ _ =>
    runicUtxos.map (·.utxo) ++ btcUtxos ++ feeUtxos

end TransactionType

section Builders

variable {fuel : ℕ} {m m' : UtxoManager} {tt : TransactionType}

theorem PlainTxn.transfer_takes {addr : String} {account : Account} {fromAddress toAddress : Address}
    {amount : ℕ} {paidBySender : Bool} {feePerVbytes : ℕ}
    (h : PlainTxn.transfer fuel addr account fromAddress toAddress amount paidBySender feePerVbytes m =
      .returned (.ok tt) m') :
    Takes m m' tt.plainDrawn tt.runicDrawn := by
  obtain ⟨fee, txn, utxos, hb, -, rfl⟩ := PlainTxn.transfer_ok h
  obtain ⟨total, hs, -⟩ := PlainTxn.buildTransactionWithFee_ok hb
  exact takes_selectBitcoin hs

theorem MultiSenderTxn.transfer_takes {arg : MultiSenderTxn.MultiSendTransactionArgument}
    (h : MultiSenderTxn.transfer fuel arg m = .returned (.ok tt) m') :
    Takes m m' tt.plainDrawn tt.runicDrawn := by
  obtain ⟨fee, txn, u0, u1, hb, -, rfl⟩ := MultiSenderTxn.transfer_ok h
  obtain ⟨s0, s1, hs, -⟩ := MultiSenderTxn.buildTransactionWithFee_ok hb
  obtain ⟨-, -, -, -, h0, h1, rfl, -⟩ := MultiSenderTxn.selectUtxos_ok hs
  exact ((takes_dropBitcoin h0).trans (takes_dropBitcoin h1)).congr (fun _ => rfl)
    (fun _ _ => List.append_nil _)

theorem RunestoneTxn.transfer_takes {args : RunestoneTxn.RuneTransferArgs}
    (h : RunestoneTxn.transfer fuel args m = .returned (.ok tt) m') :
    Takes m m' tt.plainDrawn tt.runicDrawn := by
  obtain ⟨fee, txn, runicUtxos, feeUtxos, hb, -, rfl⟩ := RunestoneTxn.transfer_ok h
  obtain ⟨m₁, _, _, hr, -, hf, -⟩ := RunestoneTxn.buildTransactionWithFee_ok hb
  exact ((takes_selectRunic hr).trans (takes_selectBitcoin hf)).congr (fun _ => rfl)
    (fun _ _ => List.append_nil _)

theorem CombinedTxn.transfer_takes {req : CombinedTxn.CombinedTransactionRequest}
    (h : CombinedTxn.transfer fuel req m = .returned (.ok tt) m') :
    Takes m m' tt.plainDrawn tt.runicDrawn := by
  obtain ⟨fee, txn, runicUtxos, btcUtxos, feeUtxos, hb, -, rfl⟩ := CombinedTxn.transfer_ok h
  obtain ⟨m₁, m₂, _, _, _, hr, hbtc, -, hf, -⟩ := CombinedTxn.buildTransactionWithFee_ok hb
  have hfee : Takes m₂ m' (plainAt req.receiverAddr feeUtxos) (fun _ _ => []) := by
    rcases CombinedTxn.selectFeeUtxos_ok hf with ⟨-, rfl, -, rfl⟩ | ⟨-, hs⟩
    · exact (Takes.refl _).congr (fun a => by simp [plainAt]) (fun _ _ => rfl)
    · exact takes_selectBitcoin hs
  exact (((takes_selectRunic hr).trans (takes_selectBitcoin hbtc)).trans hfee).congr
    (fun _ => by simp [TransactionType.plainDrawn]) (fun _ _ => by simp [TransactionType.runicDrawn])

end Builders

namespace Request

variable {fuel : ℕ} {req : Request} {m m' : UtxoManager} {tt : TransactionType}

/-- Every builder call that returns a transaction took from the pools exactly the UTXOs its
result lists, each from the pool the result names. -/
theorem transfer_ok_takes (h : req.transfer fuel m = .returned (.ok tt) m') :
    Takes m m' tt.plainDrawn tt.runicDrawn := by
  cases req with
  | bitcoin => exact PlainTxn.transfer_takes (LoopEnd.mapError_eq_returned_ok.mp h)
  | legoBitcoin => exact MultiSenderTxn.transfer_takes (LoopEnd.mapError_eq_returned_ok.mp h)
  | runestone => exact RunestoneTxn.transfer_takes (LoopEnd.mapError_eq_returned_ok.mp h)
  | combined => exact CombinedTxn.transfer_takes (LoopEnd.mapError_eq_returned_ok.mp h)

/-- Every builder call that fails only took UTXOs out of the pools, from their fronts. -/
theorem transfer_error_takes {s : Shortfall} (h : req.transfer fuel m = .returned (.error s) m') :
    ∃ plain runic, Takes m m' plain runic := by
  cases req <;> obtain ⟨_, h, -⟩ := LoopEnd.mapError_eq_returned_error.mp h
  case bitcoin =>
    obtain ⟨_, hb⟩ := PlainTxn.transfer_error h
    obtain ⟨rfl, -⟩ := PlainTxn.buildTransactionWithFee_error hb
    exact ⟨_, _, Takes.refl _⟩
  case legoBitcoin =>
    obtain ⟨_, hb⟩ := MultiSenderTxn.transfer_error h
    obtain ⟨_, _, hs⟩ := MultiSenderTxn.buildTransactionWithFee_error hb
    obtain ⟨rfl, -⟩ := MultiSenderTxn.selectUtxos_error hs
    exact ⟨_, _, Takes.refl _⟩
  case runestone =>
    obtain ⟨_, hb⟩ := RunestoneTxn.transfer_error h
    rcases RunestoneTxn.buildTransactionWithFee_error hb with ⟨-, rfl, -⟩ | ⟨_, _, _, _, _, hr, -, hf⟩
    · exact ⟨_, _, Takes.refl _⟩
    · obtain ⟨-, rfl, -⟩ := selectBitcoin_error hf
      exact ⟨_, _, takes_selectRunic hr⟩
  case combined =>
    obtain ⟨_, hb⟩ := CombinedTxn.transfer_error h
    rcases CombinedTxn.buildTransactionWithFee_error hb with rfl | ⟨_, _, _, hr⟩ |
        ⟨_, _, _, _, _, _, hr, hbtc⟩
    · exact ⟨_, _, Takes.refl _⟩
    · exact ⟨_, _, takes_selectRunic hr⟩
    · exact ⟨_, _, (takes_selectRunic hr).trans (takes_selectBitcoin hbtc)⟩

/-- A call that returns a transaction returns one iteration's result, built from the initial
pools at a fee that is the recomputed fee of its transaction. -/
theorem transfer_ok (h : req.transfer fuel m = .returned (.ok tt) m') :
    ∃ fee txn, req.build fee m = some (.ok (txn, tt), m') ∧
      recomputedFee txn req.feePerVbytes = fee := by
  cases req with
  | bitcoin =>
    obtain ⟨fee, txn, utxos, hb, hfee, rfl⟩ :=
      PlainTxn.transfer_ok (LoopEnd.mapError_eq_returned_ok.mp h)
    exact ⟨fee, txn, by simp [build, PlainTxn.build, hb, Except.map, Except.mapError], hfee⟩
  | legoBitcoin =>
    obtain ⟨fee, txn, u0, u1, hb, hfee, rfl⟩ :=
      MultiSenderTxn.transfer_ok (LoopEnd.mapError_eq_returned_ok.mp h)
    exact ⟨fee, txn, by simp [build, MultiSenderTxn.build, hb, Except.map, Except.mapError], hfee⟩
  | runestone =>
    obtain ⟨fee, txn, runicUtxos, feeUtxos, hb, hfee, rfl⟩ :=
      RunestoneTxn.transfer_ok (LoopEnd.mapError_eq_returned_ok.mp h)
    exact ⟨fee, txn, by simp [build, hb, Except.map, Except.mapError], hfee⟩
  | combined =>
    obtain ⟨fee, txn, runicUtxos, btcUtxos, feeUtxos, hb, hfee, rfl⟩ :=
      CombinedTxn.transfer_ok (LoopEnd.mapError_eq_returned_ok.mp h)
    exact ⟨fee, txn, by simp [build, hb, Except.map, Except.mapError], hfee⟩

/-- A call that fails returns the failure of one iteration from the initial pools. -/
theorem transfer_error {s : Shortfall} (h : req.transfer fuel m = .returned (.error s) m') :
    ∃ fee, req.build fee m = some (.error s, m') := by
  cases req <;> obtain ⟨e, he, rfl⟩ := LoopEnd.mapError_eq_returned_error.mp h
  case bitcoin =>
    obtain ⟨fee, hb⟩ := PlainTxn.transfer_error he
    exact ⟨fee, by simp [build, PlainTxn.build, hb, Except.map, Except.mapError]⟩
  case legoBitcoin =>
    obtain ⟨fee, hb⟩ := MultiSenderTxn.transfer_error he
    exact ⟨fee, by simp [build, MultiSenderTxn.build, hb, Except.map, Except.mapError]⟩
  case runestone =>
    obtain ⟨fee, hb⟩ := RunestoneTxn.transfer_error he
    exact ⟨fee, by simp [build, hb, Except.map, Except.mapError]⟩
  case combined =>
    obtain ⟨fee, hb⟩ := CombinedTxn.transfer_error he
    exact ⟨fee, by simp [build, hb, Except.map, Except.mapError]⟩

end Request

end OrdWallet
