import OrdWallet.Builder.Select

/-!
# The combined rune and Bitcoin transfer

`bitcoin::combined_txn`: one transaction moves `rune_amount` of a rune and `btc_amount` BTC from
the sender to the receiver. It draws every UTXO of the sender carrying the rune, then the
sender's plain UTXOs for `btc_amount`, then, when the receiver pays the fee, the receiver's plain
UTXOs for the fee and the postage the runic UTXOs do not carry. When the sender pays, no UTXO is
drawn for the fee: a check on the BTC already drawn stands in for it, and it is written
`btc_amount - actual_required_btc - fee` in the source.
-/

namespace OrdWallet.CombinedTxn

/-- `CombinedTransactionRequest`. -/
structure CombinedTransactionRequest where
  fromAddr : String
  receiverAddr : String
  senderAddress : Address
  receiverAddress : Address
  runeid : RuneId
  runeAmount : ℕ
  btcAmount : ℕ
  senderAccount : Account
  receiverAccount : Account
  postage : Option ℕ
  feePerVbytes : ℕ
  paidBySender : Bool

/-- The fee closure of `build_transaction_with_fee`. When the sender pays, it draws nothing and
fails when the BTC drawn is below `btc_amount - actual_required_btc - fee`, giving nothing back;
else it draws the receiver's UTXOs until they exceed the fee and the postage owed. -/
def selectFeeUtxos (receiverAddr : String) (runeAmount btcAmount fee actualRequiredBtc
    btcTotalSpent : ℕ) (paidBySender : Bool) (m : UtxoManager) :
    Except (ℕ × ℕ × ℕ) (List Utxo × ℕ) × UtxoManager :=
  if paidBySender then
    if btcTotalSpent < wrappingSub 64 (wrappingSub 64 btcAmount actualRequiredBtc) fee then
      (.error (runeAmount, wrappingAdd 64 (wrappingAdd 64 btcAmount actualRequiredBtc) fee, 0), m)
    else (.ok ([], 0), m)
  else
    selectBitcoin receiverAddr (wrappingAdd 64 fee actualRequiredBtc)
      (runeAmount, btcAmount, wrappingAdd 64 fee actualRequiredBtc) m

/-- `build_transaction_with_fee`: the runic loop has no `break` and drains the pool; the BTC
loop breaks past `btc_amount`; then the fee closure. The outputs are the rune outputs, the BTC
payment and the change of whoever the branch on `paid_by_sender` names. -/
def buildTransactionWithFee (fromAddr receiverAddr : String)
    (senderAddress receiverAddress : Address) (runeid : RuneId) (runeAmount btcAmount postage fee : ℕ)
    (paidBySender : Bool) (m : UtxoManager) :
    Option (Except (ℕ × ℕ × ℕ) (Transaction × List RunicUtxo × List Utxo × List Utxo) ×
      UtxoManager) :=
  match selectRunic fromAddr runeid (fun _ => false) runeAmount (runeAmount, btcAmount, fee) m with
  | (.error e, m) => some (.error e, m)
  | (.ok (runicUtxos, runicTotalSpent, btcInRunicSpent), m) =>
    match selectBitcoin fromAddr btcAmount (runeAmount, btcAmount, fee) m with
    | (.error e, m) => some (.error e, m)
    | (.ok (btcUtxos, btcTotalSpent), m) =>
      let needChangeRuneOutput := runeAmount < runicTotalSpent || 1 < runicUtxos.length
      match (if needChangeRuneOutput then doublePostage postage else some postage) with
      | none => none
      | some requiredBtcForRuneOutput =>
        let actualRequiredBtc := wrappingSub 64 requiredBtcForRuneOutput btcInRunicSpent
        match selectFeeUtxos receiverAddr runeAmount btcAmount fee actualRequiredBtc btcTotalSpent
            paidBySender m with
        | (.error e, m) => some (.error e, m)
        | (.ok (feeUtxos, feeTotalSpent), m) =>
          let output :=
            (if needChangeRuneOutput then
              [⟨0, (transferRunestone runeid runeAmount).encipher⟩, payTo senderAddress postage,
                payTo receiverAddress postage]
            else [payTo receiverAddress postage]) ++
            payTo receiverAddress btcAmount ::
              (if !paidBySender then
                changeOutput senderAddress (wrappingSub 64 btcTotalSpent btcAmount) ++
                  changeOutput receiverAddress
                    (wrappingSub 64 (wrappingSub 64 feeTotalSpent fee) actualRequiredBtc)
              else
                changeOutput senderAddress (wrappingSub 64 (wrappingSub 64
                  (wrappingSub 64 btcTotalSpent btcAmount) fee) actualRequiredBtc))
          some (.ok (unsignedTransaction
              (runicUtxos.map (unsignedInput ·.utxo) ++ btcUtxos.map unsignedInput ++
                feeUtxos.map unsignedInput) output,
            runicUtxos, btcUtxos, feeUtxos), m)

/-- The build of one fee-loop iteration; `postage.unwrap_or(DEFAULT_POSTAGE)`. -/
def build (req : CombinedTransactionRequest) (fee : ℕ) (m : UtxoManager) :
    Option (Except (ℕ × ℕ × ℕ) (Transaction × List RunicUtxo × List Utxo × List Utxo) ×
      UtxoManager) :=
  buildTransactionWithFee req.fromAddr req.receiverAddr req.senderAddress req.receiverAddress
    req.runeid req.runeAmount req.btcAmount (req.postage.getD defaultPostage) fee req.paidBySender m

/-- What the loop gives back between iterations: the runic and the BTC UTXOs to the sender, the
fee UTXOs to the receiver. -/
def giveBack (req : CombinedTransactionRequest)
    (r : Transaction × List RunicUtxo × List Utxo × List Utxo) (m : UtxoManager) : UtxoManager :=
  ((m.recordRunicUtxos req.fromAddr req.runeid r.2.1).recordBtcUtxos req.fromAddr r.2.2.1).recordBtcUtxos
    req.receiverAddr r.2.2.2

/-- `transfer`: the fee loop over `build_transaction_with_fee`. -/
def transfer (fuel : ℕ) (req : CombinedTransactionRequest) (m : UtxoManager) :
    LoopEnd (ℕ × ℕ × ℕ) TransactionType :=
  (feeLoop (build req) (·.1) (giveBack req) req.feePerVbytes fuel 0 m).map fun r =>
    .combined req.fromAddr req.receiverAddr req.senderAddress req.receiverAddress
      req.senderAccount req.receiverAccount r.1.2.1 r.1.2.2.1 r.1.2.2.2 req.runeid req.runeAmount
      req.btcAmount r.2 (req.postage.getD defaultPostage) req.paidBySender

section Build

variable {fromAddr receiverAddr : String} {senderAddress receiverAddress : Address}
  {runeid : RuneId} {runeAmount btcAmount postage fee : ℕ} {paidBySender : Bool}
  {m m' : UtxoManager}

/-- A successful fee closure drew nothing when the sender pays, and the receiver's UTXOs for the
fee and the postage owed otherwise. -/
theorem selectFeeUtxos_ok {actualRequiredBtc btcTotalSpent feeTotalSpent : ℕ} {feeUtxos : List Utxo}
    (h : selectFeeUtxos receiverAddr runeAmount btcAmount fee actualRequiredBtc btcTotalSpent
      paidBySender m = (.ok (feeUtxos, feeTotalSpent), m')) :
    (paidBySender = true ∧ feeUtxos = [] ∧ feeTotalSpent = 0 ∧ m' = m) ∨
      (paidBySender = false ∧ selectBitcoin receiverAddr (wrappingAdd 64 fee actualRequiredBtc)
        (runeAmount, btcAmount, wrappingAdd 64 fee actualRequiredBtc) m =
          (.ok (feeUtxos, feeTotalSpent), m')) := by
  unfold selectFeeUtxos at h
  cases paidBySender with
  | true =>
    simp only [if_true] at h
    split at h
    · simp at h
    · simp only [Prod.mk.injEq, Except.ok.injEq] at h
      obtain ⟨⟨rfl, rfl⟩, rfl⟩ := h
      exact .inl ⟨rfl, rfl, rfl, rfl⟩
  | false => exact .inr ⟨rfl, h⟩

/-- A successful build drained the sender's runic pool, drew the sender's plain UTXOs for the
BTC amount, ran the fee closure, and assembled the transaction from what it drew. -/
theorem buildTransactionWithFee_ok {txn : Transaction} {runicUtxos : List RunicUtxo}
    {btcUtxos feeUtxos : List Utxo}
    (h : buildTransactionWithFee fromAddr receiverAddr senderAddress receiverAddress runeid
      runeAmount btcAmount postage fee paidBySender m =
        some (.ok (txn, runicUtxos, btcUtxos, feeUtxos), m')) :
    let needChangeRuneOutput := runeAmount < sumBalances runicUtxos || 1 < runicUtxos.length
    ∃ m₁ m₂ required btcTotalSpent feeTotalSpent,
      selectRunic fromAddr runeid (fun _ => false) runeAmount (runeAmount, btcAmount, fee) m =
        (.ok (runicUtxos, sumBalances runicUtxos, sumRunicValues runicUtxos), m₁) ∧
      selectBitcoin fromAddr btcAmount (runeAmount, btcAmount, fee) m₁ =
        (.ok (btcUtxos, btcTotalSpent), m₂) ∧
      (if needChangeRuneOutput then doublePostage postage else some postage) = some required ∧
      selectFeeUtxos receiverAddr runeAmount btcAmount fee
        (wrappingSub 64 required (sumRunicValues runicUtxos)) btcTotalSpent paidBySender m₂ =
          (.ok (feeUtxos, feeTotalSpent), m') ∧
      txn = unsignedTransaction
        (runicUtxos.map (unsignedInput ·.utxo) ++ btcUtxos.map unsignedInput ++
          feeUtxos.map unsignedInput)
        ((if needChangeRuneOutput then
            [⟨0, (transferRunestone runeid runeAmount).encipher⟩, payTo senderAddress postage,
              payTo receiverAddress postage]
          else [payTo receiverAddress postage]) ++
          payTo receiverAddress btcAmount ::
            (if !paidBySender then
              changeOutput senderAddress (wrappingSub 64 btcTotalSpent btcAmount) ++
                changeOutput receiverAddress (wrappingSub 64 (wrappingSub 64 feeTotalSpent fee)
                  (wrappingSub 64 required (sumRunicValues runicUtxos)))
            else
              changeOutput senderAddress (wrappingSub 64 (wrappingSub 64
                (wrappingSub 64 btcTotalSpent btcAmount) fee)
                  (wrappingSub 64 required (sumRunicValues runicUtxos))))) := by
  dsimp only [buildTransactionWithFee] at h
  split at h
  · simp at h
  · rename_i runicUtxos₀ total btcInRunic m₁ hr
    obtain ⟨rfl, rfl, -⟩ := selectRunic_ok hr
    split at h
    · simp at h
    · rename_i btcUtxos₀ btcTotalSpent m₂ hb
      split at h
      · simp at h
      · rename_i required hreq
        split at h
        · simp at h
        · rename_i feeUtxos₀ feeTotalSpent m₃ hf
          simp only [Option.some.injEq, Prod.mk.injEq, Except.ok.injEq] at h
          obtain ⟨⟨rfl, rfl, rfl, rfl⟩, rfl⟩ := h
          exact ⟨m₁, m₂, required, btcTotalSpent, feeTotalSpent, hr, hb, hreq, hf, rfl⟩

/-- A failed fee closure leaves the manager as it was. -/
theorem selectFeeUtxos_error {actualRequiredBtc btcTotalSpent : ℕ} {e : ℕ × ℕ × ℕ}
    (h : selectFeeUtxos receiverAddr runeAmount btcAmount fee actualRequiredBtc btcTotalSpent
      paidBySender m = (.error e, m')) : m' = m := by
  unfold selectFeeUtxos at h
  cases paidBySender with
  | true =>
    simp only [if_true] at h
    split at h
    · exact (Prod.mk.inj h).2.symm
    · simp at h
  | false => exact (selectBitcoin_error h).2.1

/-- A failed build leaves the manager as the stages before the failing one left it: the runic
UTXOs drawn, and the BTC UTXOs drawn, are not given back when a later stage fails. -/
theorem buildTransactionWithFee_error {e : ℕ × ℕ × ℕ}
    (h : buildTransactionWithFee fromAddr receiverAddr senderAddress receiverAddress runeid
      runeAmount btcAmount postage fee paidBySender m = some (.error e, m')) :
    m' = m ∨
      (∃ runicUtxos total btcInRunic,
        selectRunic fromAddr runeid (fun _ => false) runeAmount (runeAmount, btcAmount, fee) m =
          (.ok (runicUtxos, total, btcInRunic), m')) ∨
      ∃ runicUtxos total btcInRunic m₁ btcUtxos btcTotalSpent,
        selectRunic fromAddr runeid (fun _ => false) runeAmount (runeAmount, btcAmount, fee) m =
          (.ok (runicUtxos, total, btcInRunic), m₁) ∧
        selectBitcoin fromAddr btcAmount (runeAmount, btcAmount, fee) m₁ =
          (.ok (btcUtxos, btcTotalSpent), m') := by
  dsimp only [buildTransactionWithFee] at h
  split at h
  · rename_i e₀ m₀ hr
    simp only [Option.some.injEq, Prod.mk.injEq, Except.error.injEq] at h
    obtain ⟨rfl, rfl⟩ := h
    exact .inl (selectRunic_error (fun _ h => absurd h Bool.false_ne_true) hr).2.1
  · rename_i runicUtxos total btcInRunic m₁ hr
    split at h
    · rename_i e₀ m₀ hb
      simp only [Option.some.injEq, Prod.mk.injEq, Except.error.injEq] at h
      obtain ⟨rfl, rfl⟩ := h
      obtain ⟨-, rfl, -⟩ := selectBitcoin_error hb
      exact .inr (.inl ⟨runicUtxos, total, btcInRunic, hr⟩)
    · rename_i btcUtxos btcTotalSpent m₂ hb
      split at h
      · simp at h
      · split at h
        · rename_i e₀ m₀ hf
          simp only [Option.some.injEq, Prod.mk.injEq, Except.error.injEq] at h
          obtain ⟨rfl, rfl⟩ := h
          rw [selectFeeUtxos_error hf]
          exact .inr (.inr ⟨runicUtxos, total, btcInRunic, m₁, btcUtxos, btcTotalSpent, hr, hb⟩)
        · simp at h

end Build

/-- Giving back the runic, BTC and fee UTXOs of a successful build restores the manager. -/
theorem build_restores (req : CombinedTransactionRequest) :
    Restores (build req) (giveBack req) := by
  intro f m b m' hb
  obtain ⟨m₁, m₂, required, btcTotal, feeTotal, hr, hbtc, -, hf, -⟩ := buildTransactionWithFee_ok hb
  have hrun := (selectRunic_ok hr).2.2.2.2.2
  obtain ⟨-, -, rfl, hpre, hback⟩ := selectBitcoin_ok hbtc
  simp only [giveBack, UtxoManager.recordBtcUtxos_recordRunicUtxos]
  rcases selectFeeUtxos_ok hf with ⟨-, hnil, -, rfl⟩ | ⟨-, hfee⟩
  · rw [hnil, UtxoManager.recordBtcUtxos_nil, hback, hrun]
  · obtain ⟨-, -, rfl, hpre', -⟩ := selectBitcoin_ok hfee
    rw [UtxoManager.recordBtcUtxos_dropBitcoin_dropBitcoin hpre hpre', hrun]

variable {fuel : ℕ} {req : CombinedTransactionRequest} {m m' : UtxoManager}

/-- A transfer that returns a transaction returns the build, from the initial pools, at a fee
that is the recomputed fee of that transaction. -/
theorem transfer_ok {tt : TransactionType} (h : transfer fuel req m = .returned (.ok tt) m') :
    ∃ fee txn runicUtxos btcUtxos feeUtxos,
      build req fee m = some (.ok (txn, runicUtxos, btcUtxos, feeUtxos), m') ∧
      recomputedFee txn req.feePerVbytes = fee ∧
      tt = .combined req.fromAddr req.receiverAddr req.senderAddress req.receiverAddress
        req.senderAccount req.receiverAccount runicUtxos btcUtxos feeUtxos req.runeid
        req.runeAmount req.btcAmount fee (req.postage.getD defaultPostage) req.paidBySender := by
  obtain ⟨⟨⟨txn, runicUtxos, btcUtxos, feeUtxos⟩, fee⟩, hloop, rfl⟩ :=
    LoopEnd.map_eq_returned_ok.mp h
  obtain ⟨hb, hfee⟩ := feeLoop_returned_ok (build_restores req) hloop
  exact ⟨fee, txn, runicUtxos, btcUtxos, feeUtxos, hb, hfee, rfl⟩

/-- A transfer that fails returns the failure of a build from the initial pools. -/
theorem transfer_error {e : ℕ × ℕ × ℕ} (h : transfer fuel req m = .returned (.error e) m') :
    ∃ fee, build req fee m = some (.error e, m') :=
  feeLoop_returned_error (build_restores req) (LoopEnd.map_eq_returned_error.mp h)

end OrdWallet.CombinedTxn
