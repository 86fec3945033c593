import OrdWallet.Builder.Select

/-!
# The rune transfer

`bitcoin::runestone`: the sender's UTXOs carrying the rune pay `amount` to the receiver through
an edict to output 2, and the rest stays with the sender; the postage of the rune outputs that
the runic UTXOs do not carry, and the fee, come from the fee payer's plain UTXOs (the sender's
when it pays, else the receiver's). When the fee payer falls short, only its own UTXOs go back:
the runic UTXOs drawn before stay out of the pool.
-/

namespace OrdWallet.RunestoneTxn

/-- `RuneTransferArgs`. -/
structure RuneTransferArgs where
  runeid : RuneId
  amount : ℕ
  senderAddr : String
  receiverAddr : String
  senderAccount : Account
  receiverAccount : Account
  senderAddress : Address
  receiverAddress : Address
  feePerVbytes : ℕ
  paidBySender : Bool
  postage : Option ℕ

/-- `build_transaction_with_fee`: draw the sender's UTXOs carrying `runeid` until their balance
exceeds `amount`; the postage owed is doubled when rune change is needed (`postage * 2` panics
on overflow, `none` here); draw the fee payer's UTXOs until they exceed the fee and the postage
the runic UTXOs do not carry. -/
def buildTransactionWithFee (runeid : RuneId) (amount : ℕ) (senderAddr receiverAddr : String)
    (senderAddress receiverAddress : Address) (fee : ℕ) (paidBySender : Bool) (postage : ℕ)
    (m : UtxoManager) :
    Option (Except (ℕ × ℕ) (Transaction × List RunicUtxo × List Utxo) × UtxoManager) :=
  match selectRunic senderAddr runeid (fun total => amount < total) amount (amount, 0) m with
  | (.error e, m) => some (.error e, m)
  | (.ok (runicUtxos, runicTotalSpent, btcInRunic), m) =>
    let needChangeRuneOutput := amount < runicTotalSpent || 1 < runicUtxos.length
    match (if needChangeRuneOutput then doublePostage postage else some postage) with
    | none => none
    | some requiredBtcForRuneOutput =>
      let actualRequiredBtc := wrappingSub 64 requiredBtcForRuneOutput btcInRunic
      let feePayer := if paidBySender then senderAddr else receiverAddr
      match selectBitcoin feePayer (wrappingAdd 64 fee actualRequiredBtc) (0, fee) m with
      | (.error e, m) => some (.error e, m)
      | (.ok (feeUtxos, feeTotalSpent), m) =>
        let output :=
          if needChangeRuneOutput then
            [⟨0, (transferRunestone runeid amount).encipher⟩, payTo senderAddress postage,
              payTo receiverAddress postage]
          else [payTo receiverAddress postage]
        let remaining := wrappingSub 64 (wrappingSub 64 feeTotalSpent fee) actualRequiredBtc
        some (.ok (unsignedTransaction
            (runicUtxos.map (unsignedInput ·.utxo) ++ feeUtxos.map unsignedInput)
            (output ++
              changeOutput (if paidBySender then senderAddress else receiverAddress) remaining),
          runicUtxos, feeUtxos), m)

/-- The build of one fee-loop iteration; `postage.unwrap_or(DEFAULT_POSTAGE)`. -/
def build (args : RuneTransferArgs) (fee : ℕ) (m : UtxoManager) :
    Option (Except (ℕ × ℕ) (Transaction × List RunicUtxo × List Utxo) × UtxoManager) :=
  buildTransactionWithFee args.runeid args.amount args.senderAddr args.receiverAddr
    args.senderAddress args.receiverAddress fee args.paidBySender (args.postage.getD defaultPostage) m

/-- What the loop gives back between iterations: the runic UTXOs to the sender, the fee UTXOs to
the fee payer. -/
def giveBack (args : RuneTransferArgs) (r : Transaction × List RunicUtxo × List Utxo)
    (m : UtxoManager) : UtxoManager :=
  (m.recordRunicUtxos args.senderAddr args.runeid r.2.1).recordBtcUtxos
    (if args.paidBySender then args.senderAddr else args.receiverAddr) r.2.2

/-- `transfer`: the fee loop over `build_transaction_with_fee`. -/
def transfer (fuel : ℕ) (args : RuneTransferArgs) (m : UtxoManager) :
    LoopEnd (ℕ × ℕ) TransactionType :=
  (feeLoop (build args) (·.1) (giveBack args) args.feePerVbytes fuel 0 m).map fun r =>
    .runestone args.senderAddr args.receiverAddr args.senderAccount args.receiverAccount
      args.runeid args.amount r.2 r.1.2.1 r.1.2.2 args.paidBySender args.senderAddress
      args.receiverAddress (args.postage.getD defaultPostage)

section Build

variable {runeid : RuneId} {amount fee postage : ℕ} {senderAddr receiverAddr : String}
  {senderAddress receiverAddress : Address} {paidBySender : Bool} {m m' : UtxoManager}

/-- The runic stage fails only on a pool short of `amount`, and gives it back. -/
theorem buildTransactionWithFee_runic_error {e : ℕ × ℕ}
    (h : selectRunic senderAddr runeid (fun total => amount < total) amount (amount, 0) m =
      (.error e, m')) :
    buildTransactionWithFee runeid amount senderAddr receiverAddr senderAddress receiverAddress
        fee paidBySender postage m = some (.error e, m') ∧
      e = (amount, 0) ∧ m' = m ∧ sumBalances (m.runic senderAddr runeid) < amount := by
  obtain ⟨rfl, rfl, hlt⟩ := selectRunic_error (fun t ht => Nat.le_of_lt (of_decide_eq_true ht)) h
  exact ⟨by simp only [buildTransactionWithFee, h], rfl, rfl, hlt⟩

/-- The fee stage fails only on a fee payer's pool short of the fee and the postage owed; it
gives that pool back but keeps the runic UTXOs drawn before, and reports the fee alone. -/
theorem buildTransactionWithFee_fee_error {runicUtxos : List RunicUtxo} {total btcInRunic : ℕ}
    {required : ℕ} {m₁ : UtxoManager} {e : ℕ × ℕ}
    (hr : selectRunic senderAddr runeid (fun total => amount < total) amount (amount, 0) m =
      (.ok (runicUtxos, total, btcInRunic), m₁))
    (hreq : (if amount < total || 1 < runicUtxos.length then doublePostage postage
      else some postage) = some required)
    (hf : selectBitcoin (if paidBySender then senderAddr else receiverAddr)
      (wrappingAdd 64 fee (wrappingSub 64 required btcInRunic)) (0, fee) m₁ = (.error e, m')) :
    buildTransactionWithFee runeid amount senderAddr receiverAddr senderAddress receiverAddress
        fee paidBySender postage m = some (.error e, m') ∧
      e = (0, fee) ∧ m' = m₁ ∧
      sumValues (m.bitcoin (if paidBySender then senderAddr else receiverAddr)) <
        wrappingAdd 64 fee (wrappingSub 64 required btcInRunic) := by
  obtain ⟨rfl, rfl, hlt⟩ := selectBitcoin_error hf
  obtain ⟨-, -, -, rfl, -, -⟩ := selectRunic_ok hr
  exact ⟨by simp only [buildTransactionWithFee, hr, hreq, hf], rfl, rfl, hlt⟩

/-- A failed build failed in its runic stage, with the pool given back, or in its fee stage. -/
theorem buildTransactionWithFee_error {e : ℕ × ℕ}
    (h : buildTransactionWithFee runeid amount senderAddr receiverAddr senderAddress
      receiverAddress fee paidBySender postage m = some (.error e, m')) :
    (e = (amount, 0) ∧ m' = m ∧ sumBalances (m.runic senderAddr runeid) < amount) ∨
      ∃ runicUtxos total btcInRunic required m₁,
        selectRunic senderAddr runeid (fun total => amount < total) amount (amount, 0) m =
          (.ok (runicUtxos, total, btcInRunic), m₁) ∧
        (if amount < total || 1 < runicUtxos.length then doublePostage postage
          else some postage) = some required ∧
        selectBitcoin (if paidBySender then senderAddr else receiverAddr)
          (wrappingAdd 64 fee (wrappingSub 64 required btcInRunic)) (0, fee) m₁ = (.error e, m') := by
  dsimp only [buildTransactionWithFee] at h
  split at h
  · rename_i e₀ m₀ hr
    simp only [Option.some.injEq, Prod.mk.injEq, Except.error.injEq] at h
    obtain ⟨rfl, rfl⟩ := h
    obtain ⟨rfl, rfl, hlt⟩ := selectRunic_error (fun t ht => Nat.le_of_lt (of_decide_eq_true ht)) hr
    exact .inl ⟨rfl, rfl, hlt⟩
  · rename_i runicUtxos total btcInRunic m₁ hr
    split at h
    · exact absurd h (by simp)
    · rename_i required hreq
      split at h
      · rename_i e₀ m₂ hf
        simp only [Option.some.injEq, Prod.mk.injEq, Except.error.injEq] at h
        obtain ⟨rfl, rfl⟩ := h
        exact .inr ⟨runicUtxos, total, btcInRunic, required, m₁, hr, hreq, hf⟩
      · simp at h

/-- A successful build drew the sender's runic UTXOs, then the fee payer's, and assembled the
transaction from them. -/
theorem buildTransactionWithFee_ok {txn : Transaction} {runicUtxos : List RunicUtxo}
    {feeUtxos : List Utxo}
    (h : buildTransactionWithFee runeid amount senderAddr receiverAddr senderAddress
      receiverAddress fee paidBySender postage m = some (.ok (txn, runicUtxos, feeUtxos), m')) :
    let needChangeRuneOutput := amount < sumBalances runicUtxos || 1 < runicUtxos.length
    ∃ m₁ required feeTotalSpent,
      selectRunic senderAddr runeid (fun total => amount < total) amount (amount, 0) m =
        (.ok (runicUtxos, sumBalances runicUtxos, sumRunicValues runicUtxos), m₁) ∧
      (if needChangeRuneOutput then doublePostage postage else some postage) = some required ∧
      selectBitcoin (if paidBySender then senderAddr else receiverAddr)
        (wrappingAdd 64 fee (wrappingSub 64 required (sumRunicValues runicUtxos))) (0, fee) m₁ =
          (.ok (feeUtxos, feeTotalSpent), m') ∧
      txn = unsignedTransaction
        (runicUtxos.map (unsignedInput ·.utxo) ++ feeUtxos.map unsignedInput)
        ((if needChangeRuneOutput then
            [⟨0, (transferRunestone runeid amount).encipher⟩, payTo senderAddress postage,
              payTo receiverAddress postage]
          else [payTo receiverAddress postage]) ++
          changeOutput (if paidBySender then senderAddress else receiverAddress)
            (wrappingSub 64 (wrappingSub 64 feeTotalSpent fee)
              (wrappingSub 64 required (sumRunicValues runicUtxos)))) := by
  dsimp only [buildTransactionWithFee] at h
  split at h
  · simp at h
  · rename_i runicUtxos₀ total btcInRunic m₁ hr
    obtain ⟨rfl, rfl, -⟩ := selectRunic_ok hr
    split at h
    · simp at h
    · rename_i required hreq
      split at h
      · simp at h
      · rename_i feeUtxos₀ feeTotalSpent m₂ hf
        simp only [Option.some.injEq, Prod.mk.injEq, Except.ok.injEq] at h
        obtain ⟨⟨rfl, rfl, rfl⟩, rfl⟩ := h
        exact ⟨m₁, required, feeTotalSpent, hr, hreq, hf, rfl⟩

end Build

/-- Giving back the runic and the fee UTXOs of a successful build restores the manager. -/
theorem build_restores (args : RuneTransferArgs) : Restores (build args) (giveBack args) := by
  intro f m b m' hb
  obtain ⟨m₁, required, feeTotalSpent, hr, -, hf, -⟩ := buildTransactionWithFee_ok hb
  rw [giveBack, UtxoManager.recordBtcUtxos_recordRunicUtxos, (selectBitcoin_ok hf).2.2.2.2]
  exact (selectRunic_ok hr).2.2.2.2.2

variable {fuel : ℕ} {args : RuneTransferArgs} {m m' : UtxoManager}

/-- A transfer that returns a transaction returns the build, from the initial pools, at a fee
that is the recomputed fee of that transaction. -/
theorem transfer_ok {tt : TransactionType} (h : transfer fuel args m = .returned (.ok tt) m') :
    ∃ fee txn runicUtxos feeUtxos,
      build args fee m = some (.ok (txn, runicUtxos, feeUtxos), m') ∧
      recomputedFee txn args.feePerVbytes = fee ∧
      tt = .runestone args.senderAddr args.receiverAddr args.senderAccount args.receiverAccount
        args.runeid args.amount fee runicUtxos feeUtxos args.paidBySender args.senderAddress
        args.receiverAddress (args.postage.getD defaultPostage) := by
  obtain ⟨⟨⟨txn, runicUtxos, feeUtxos⟩, fee⟩, hloop, rfl⟩ := LoopEnd.map_eq_returned_ok.mp h
  obtain ⟨hb, hfee⟩ := feeLoop_returned_ok (build_restores args) hloop
  exact ⟨fee, txn, runicUtxos, feeUtxos, hb, hfee, rfl⟩

/-- A transfer that fails returns the failure of a build from the initial pools. -/
theorem transfer_error {e : ℕ × ℕ} (h : transfer fuel args m = .returned (.error e) m') :
    ∃ fee, build args fee m = some (.error e, m') :=
  feeLoop_returned_error (build_restores args) (LoopEnd.map_eq_returned_error.mp h)

end OrdWallet.RunestoneTxn
