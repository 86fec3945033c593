import OrdWallet.Transaction
import OrdWallet.UtxoManager

/-!
# Built transactions and their signing

A successful builder returns a `TransactionType` (`transaction_handler::TransactionType`).
Except for the plain shape, it does not keep the transaction it measured: `build_and_submit`
assembles the unsigned transaction again from the stored UTXOs, amounts, fee and postage, then
signs input after input with the key of the party chosen by index lists. This file models that
reassembly and the choice of signer; the ECDSA oracle and the broadcast are external.
-/

namespace OrdWallet

/-- The four transaction shapes and what each keeps for signing. -/
inductive TransactionType
  | bitcoin (addr : String) (utxos : List Utxo) (signerAccount : Account)
      (signerAddress : Address) (txn : Transaction)
  | legoBitcoin (addr0 addr1 : String) (account0 account1 : Account) (address0 address1 : Address)
      (utxos0 utxos1 : List Utxo) (amount0 amount1 fee : ℕ) (paidBySender : Bool)
      (receiver : Address)
  | runestone (senderAddr receiverAddr : String) (senderAccount receiverAccount : Account)
      (runeid : RuneId) (amount fee : ℕ) (runicUtxos : List RunicUtxo) (feeUtxos : List Utxo)
      (paidBySender : Bool) (senderAddress receiverAddress : Address) (postage : ℕ)
  | combined (senderAddr receiverAddr : String) (senderAddress receiverAddress : Address)
      (senderAccount receiverAccount : Account) (runicUtxos : List RunicUtxo)
      (btcUtxos feeUtxos : List Utxo) (runeid : RuneId) (runeAmount btcAmount fee : ℕ)
      (postage : ℕ) (paidBySender : Bool)
  deriving DecidableEq

/-- `postage * 2` on `Amount`, which panics on overflow; `none` is the panic. -/
def doublePostage (postage : ℕ) : Option ℕ :=
  if 2 * postage < 2 ^ 64 then some (2 * postage) else none

/-- The body of the plain selection loops: `sum += utxo.value` in `u64`. -/
def addValue (sum : ℕ) (u : Utxo) : ℕ := wrappingAdd 64 sum u.value

/-- The body of the runic selection loops: the rune balance is added in `u128`, the BTC the UTXO
carries in `u64`. -/
def addRunic (acc : ℕ × ℕ) (u : RunicUtxo) : ℕ × ℕ :=
  (wrappingAdd 128 acc.1 u.balance, wrappingAdd 64 acc.2 u.utxo.value)

/-- The `u64` running sum of the values of a list of UTXOs. -/
def sumValues (utxos : List Utxo) : ℕ := utxos.foldl addValue 0

/-- The `u128` running sum of the rune balances of a list of runic UTXOs. -/
def sumBalances (utxos : List RunicUtxo) : ℕ := utxos.foldl (fun s u => wrappingAdd 128 s u.balance) 0

/-- The `u64` running sum of the BTC carried by a list of runic UTXOs. -/
def sumRunicValues (utxos : List RunicUtxo) : ℕ :=
  utxos.foldl (fun s u => wrappingAdd 64 s u.utxo.value) 0

/-- The running sum of a plain selection loop is the sum of the drawn values. -/
theorem UtxoManager.drawBitcoin_total (m : UtxoManager) (addr : String) (done : ℕ → Bool) :
    (m.drawBitcoin addr addValue done 0).total = sumValues (m.drawBitcoin addr addValue done 0).utxos :=
  drawLoop_acc 0 _

/-- The running sums of a runic selection loop are those of the drawn UTXOs. -/
theorem UtxoManager.drawRunic_total (m : UtxoManager) (addr : String) (runeid : RuneId)
    (done : ℕ × ℕ → Bool) :
    (m.drawRunic addr runeid addRunic done (0, 0)).total =
      (sumBalances (m.drawRunic addr runeid addRunic done (0, 0)).utxos,
        sumRunicValues (m.drawRunic addr runeid addRunic done (0, 0)).utxos) := by
  simp only [UtxoManager.drawRunic, sumBalances, sumRunicValues]
  rw [drawLoop_acc]
  generalize (drawLoop addRunic done (0, 0) (m.runic addr runeid)).1 = l
  suffices ∀ a b, l.foldl addRunic (a, b) = (l.foldl (fun s u => wrappingAdd 128 s u.balance) a,
      l.foldl (fun s u => wrappingAdd 64 s u.utxo.value) b) from this 0 0
  induction l with
  | nil => intro a b; rfl
  | cons u us ih => intro a b; exact ih _ _

/-- The change output of `value` to `address`, kept only above the dust threshold. -/
def changeOutput (address : Address) (value : ℕ) : List TxOut :=
  if dustThreshold < value then [payTo address value] else []

namespace TransactionType

/-- The `LegoBitcoin` arm of `build_and_submit`: inputs of `addr0` then of `addr1`; the
receiver's output, then each sender's change after its half of the amount and of the fee. -/
def legoTxn (address0 address1 : Address) (utxos0 utxos1 : List Utxo) (amount0 amount1 fee : ℕ)
    (paidBySender : Bool) (receiver : Address) : Transaction :=
  let receiverValue :=
    if paidBySender then wrappingAdd 64 amount0 amount1
    else wrappingSub 64 (wrappingAdd 64 amount0 amount1) fee
  let (fee0, fee1) := if fee % 2 = 0 then (fee / 2, fee / 2) else ((fee - 1) / 2, (fee - 1) / 2 + 1)
  let (due0, due1) :=
    if paidBySender then (wrappingAdd 64 amount0 fee0, wrappingAdd 64 amount1 fee1)
    else (amount0, amount1)
  unsignedTransaction (utxos0.map unsignedInput ++ utxos1.map unsignedInput)
    (payTo receiver receiverValue ::
      (changeOutput address0 (wrappingSub 64 (sumValues utxos0) due0) ++
        changeOutput address1 (wrappingSub 64 (sumValues utxos1) due1)))

/-- The `Runestone` arm of `build_and_submit`: runic inputs then fee inputs; the Runestone and
two postage outputs when rune change is needed, else the receiver's postage alone; then the fee
payer's change. -/
def runestoneTxn (runeid : RuneId) (amount fee : ℕ) (runicUtxos : List RunicUtxo)
    (feeUtxos : List Utxo) (paidBySender : Bool) (senderAddress receiverAddress : Address)
    (postage : ℕ) : Option Transaction :=
  let needChangeRuneOutput := amount < sumBalances runicUtxos || 1 < runicUtxos.length
  let required := if needChangeRuneOutput then doublePostage postage else some postage
  required.map fun requiredBtcForRuneOutput =>
    let actualRequiredBtc := wrappingSub 64 requiredBtcForRuneOutput (sumRunicValues runicUtxos)
    let runeOutputs :=
      if needChangeRuneOutput then
        [⟨0, (transferRunestone runeid amount).encipher⟩, payTo senderAddress postage,
          payTo receiverAddress postage]
      else [payTo receiverAddress postage]
    let remaining := wrappingSub 64 (wrappingSub 64 (sumValues feeUtxos) fee) actualRequiredBtc
    unsignedTransaction (runicUtxos.map (unsignedInput ·.utxo) ++ feeUtxos.map unsignedInput)
      (runeOutputs ++
        changeOutput (if paidBySender then senderAddress else receiverAddress) remaining)

/-- The `Combined` arm of `build_and_submit`: runic, then sender BTC, then fee inputs; the rune
outputs, the BTC payment, then the change of whoever pays the fee. -/
def combinedTxn (senderAddress receiverAddress : Address) (runicUtxos : List RunicUtxo)
    (btcUtxos feeUtxos : List Utxo) (runeid : RuneId) (runeAmount btcAmount fee postage : ℕ)
    (paidBySender : Bool) : Option Transaction :=
  let needChangeRuneOutput := runeAmount < sumBalances runicUtxos || 1 < runicUtxos.length
  let required := if needChangeRuneOutput then doublePostage postage else some postage
  required.map fun requiredBtcForRuneOutput =>
    let actualRequiredBtc := wrappingSub 64 requiredBtcForRuneOutput (sumRunicValues runicUtxos)
    let runeOutputs :=
      if needChangeRuneOutput then
        [⟨0, (transferRunestone runeid runeAmount).encipher⟩, payTo senderAddress postage,
          payTo receiverAddress postage]
      else [payTo receiverAddress postage]
    let changeOutputs :=
      if paidBySender then
        changeOutput senderAddress (wrappingSub 64 (wrappingSub 64
          (wrappingSub 64 (sumValues btcUtxos) btcAmount) fee) actualRequiredBtc)
      else
        changeOutput senderAddress (wrappingSub 64 (sumValues btcUtxos) btcAmount) ++
          changeOutput receiverAddress
            (wrappingSub 64 (wrappingSub 64 (sumValues feeUtxos) fee) actualRequiredBtc)
    unsignedTransaction
      (runicUtxos.map (unsignedInput ·.utxo) ++ btcUtxos.map unsignedInput ++
        feeUtxos.map unsignedInput)
      (runeOutputs ++ payTo receiverAddress btcAmount :: changeOutputs)

/-- The unsigned transaction `build_and_submit` signs; `none` when reassembling it panics. -/
def unsignedTxn : TransactionType → Option Transaction
  | bitcoin _ _ _ _ txn => some txn
  | legoBitcoin _ _ _ _ address0 address1 utxos0 utxos1 amount0 amount1 fee paidBySender receiver =>
    some (legoTxn address0 address1 utxos0 utxos1 amount0 amount1 fee paidBySender receiver)
  | runestone _ _ _ _ runeid amount fee runicUtxos feeUtxos paidBySender senderAddress
      receiverAddress postage =>
    runestoneTxn runeid amount fee runicUtxos feeUtxos paidBySender senderAddress receiverAddress
      postage
  | combined _ _ senderAddress receiverAddress _ _ runicUtxos btcUtxos feeUtxos runeid runeAmount
      btcAmount fee postage paidBySender =>
    combinedTxn senderAddress receiverAddress runicUtxos btcUtxos feeUtxos runeid runeAmount
      btcAmount fee postage paidBySender

/-- The signer of input `i` in `build_and_submit`: the address whose script the legacy sighash
commits to and the account whose derivation path and public key sign. The choice follows the
index lists the code fills while it adds the inputs. -/
def signer : TransactionType → ℕ → Address × Account
  | bitcoin _ _ signerAccount signerAddress _, _ => (signerAddress, signerAccount)
  | legoBitcoin _ _ account0 account1 address0 address1 utxos0 _ _ _ _ _ _, i =>
    if i ∈ List.range utxos0.length then (address0, account0) else (address1, account1)
  | runestone _ _ senderAccount receiverAccount _ _ _ runicUtxos feeUtxos paidBySender
      senderAddress receiverAddress _, i =>
    let indexOfUtxosOfSender := List.range runicUtxos.length ++
      (if paidBySender then List.range' runicUtxos.length feeUtxos.length else [])
    if i ∈ indexOfUtxosOfSender then (senderAddress, senderAccount)
    else (receiverAddress, receiverAccount)
  | combined _ _ senderAddress receiverAddress senderAccount receiverAccount runicUtxos btcUtxos
      feeUtxos _ _ _ _ _ paidBySender, i =>
    let indexOfUtxosReceiver :=
      if !paidBySender then List.range' (runicUtxos.length + btcUtxos.length) feeUtxos.length
      else []
    if i ∈ indexOfUtxosReceiver then (receiverAddress, receiverAccount)
    else (senderAddress, senderAccount)

end TransactionType

end OrdWallet
