import OrdWallet.Builder.Select

/-!
# The plain Bitcoin send

`bitcoin::transaction`: the sender's plain UTXOs pay the receiver, and the change goes back to
the sender when it is above the dust threshold. Giving back the drawn UTXOs restores the pools,
so a returned result is a build at the returned fee from the initial pools.
-/

namespace OrdWallet.PlainTxn

/-- `build_transaction_with_fee`: draw the sender's UTXOs until their sum exceeds the amount due
(the fee included when the sender pays it), or fail with the amount due. -/
def buildTransactionWithFee (addr : String) (fromAddress toAddress : Address) (amount fee : ℕ)
    (paidBySender : Bool) (m : UtxoManager) : Except ℕ (Transaction × List Utxo) × UtxoManager :=
  let totalAmount := if paidBySender then wrappingAdd 64 amount fee else amount
  match selectBitcoin addr totalAmount totalAmount m with
  | (.error e, m) => (.error e, m)
  | (.ok (utxosToSpend, totalSpent), m) =>
    let receiverValue := if paidBySender then amount else wrappingSub 64 amount fee
    (.ok (unsignedTransaction (utxosToSpend.map unsignedInput)
        (payTo toAddress receiverValue ::
          changeOutput fromAddress (wrappingSub 64 totalSpent totalAmount)), utxosToSpend), m)

/-- The build of one fee-loop iteration. -/
def build (addr : String) (fromAddress toAddress : Address) (amount : ℕ) (paidBySender : Bool)
    (fee : ℕ) (m : UtxoManager) : Option (Except ℕ (Transaction × List Utxo) × UtxoManager) :=
  some (buildTransactionWithFee addr fromAddress toAddress amount fee paidBySender m)

/-- `transfer`: the fee loop over `build_transaction_with_fee`, giving the UTXOs back to `addr`
between iterations; its result keeps the transaction. -/
def transfer (fuel : ℕ) (addr : String) (account : Account) (fromAddress toAddress : Address)
    (amount : ℕ) (paidBySender : Bool) (feePerVbytes : ℕ) (m : UtxoManager) :
    LoopEnd ℕ TransactionType :=
  (feeLoop (build addr fromAddress toAddress amount paidBySender) (·.1)
      (fun r m => m.recordBtcUtxos addr r.2) feePerVbytes fuel 0 m).map
    fun r => .bitcoin addr r.1.2 account fromAddress r.1.1

variable {addr : String} {fromAddress toAddress : Address} {amount fee : ℕ}
  {paidBySender : Bool} {m m' : UtxoManager}

/-- A failed build found the sender's whole pool short of the amount due and left it as it was. -/
theorem buildTransactionWithFee_error {e : ℕ}
    (h : buildTransactionWithFee addr fromAddress toAddress amount fee paidBySender m =
      (.error e, m')) :
    m' = m ∧ e = (if paidBySender then wrappingAdd 64 amount fee else amount) ∧
      sumValues (m.bitcoin addr) < e := by
  dsimp only [buildTransactionWithFee] at h
  split at h
  · rename_i e₀ m₀ hs
    simp only [Prod.mk.injEq, Except.error.injEq] at h
    obtain ⟨rfl, rfl⟩ := h
    obtain ⟨rfl, rfl, hlt⟩ := selectBitcoin_error hs
    exact ⟨rfl, rfl, hlt⟩
  · simp at h

/-- A successful build is the selection of the sender's UTXOs and the transaction paying the
receiver, with the change above dust. -/
theorem buildTransactionWithFee_ok {txn : Transaction} {utxos : List Utxo}
    (h : buildTransactionWithFee addr fromAddress toAddress amount fee paidBySender m =
      (.ok (txn, utxos), m')) :
    ∃ totalSpent,
      selectBitcoin addr (if paidBySender then wrappingAdd 64 amount fee else amount)
        (if paidBySender then wrappingAdd 64 amount fee else amount) m =
          (.ok (utxos, totalSpent), m') ∧
      txn = unsignedTransaction (utxos.map unsignedInput)
        (payTo toAddress (if paidBySender then amount else wrappingSub 64 amount fee) ::
          changeOutput fromAddress (wrappingSub 64 totalSpent
            (if paidBySender then wrappingAdd 64 amount fee else amount))) := by
  dsimp only [buildTransactionWithFee] at h
  split at h
  · simp at h
  · rename_i utxos₀ total m₀ hs
    simp only [Prod.mk.injEq, Except.ok.injEq] at h
    obtain ⟨⟨rfl, rfl⟩, rfl⟩ := h
    exact ⟨total, hs, rfl⟩

/-- Giving back the UTXOs of a successful build restores the manager. -/
theorem build_restores :
    Restores (build addr fromAddress toAddress amount paidBySender)
      (fun r m => m.recordBtcUtxos addr r.2) := by
  intro f m b m' hb
  obtain ⟨total, hs, -⟩ := buildTransactionWithFee_ok (Option.some.inj hb)
  exact (selectBitcoin_ok hs).2.2.2.2

variable {fuel feePerVbytes : ℕ} {account : Account}

/-- A transfer that returns a transaction returns the build, from the initial pools, at a fee
that is the recomputed fee of that transaction. -/
theorem transfer_ok {tt : TransactionType}
    (h : transfer fuel addr account fromAddress toAddress amount paidBySender feePerVbytes m =
      .returned (.ok tt) m') :
    ∃ fee txn utxos,
      buildTransactionWithFee addr fromAddress toAddress amount fee paidBySender m =
        (.ok (txn, utxos), m') ∧ recomputedFee txn feePerVbytes = fee ∧
      tt = .bitcoin addr utxos account fromAddress txn := by
  obtain ⟨⟨⟨txn, utxos⟩, fee⟩, hloop, rfl⟩ := LoopEnd.map_eq_returned_ok.mp h
  obtain ⟨hb, hfee⟩ := feeLoop_returned_ok build_restores hloop
  exact ⟨fee, txn, utxos, Option.some.inj hb, hfee, rfl⟩

/-- A transfer that fails returns the failure of a build from the initial pools. -/
theorem transfer_error {e : ℕ}
    (h : transfer fuel addr account fromAddress toAddress amount paidBySender feePerVbytes m =
      .returned (.error e) m') :
    ∃ fee, buildTransactionWithFee addr fromAddress toAddress amount fee paidBySender m =
      (.error e, m') := by
  obtain ⟨fee, hb⟩ := feeLoop_returned_error build_restores (LoopEnd.map_eq_returned_error.mp h)
  exact ⟨fee, Option.some.inj hb⟩

end OrdWallet.PlainTxn
