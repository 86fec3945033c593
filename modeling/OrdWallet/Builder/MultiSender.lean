import OrdWallet.Builder.Select

/-!
# The two-sender Bitcoin send

`bitcoin::multi_sender_txn`: two senders each cover half of the amount and, when they pay it, half
of the fee; one output pays the receiver and each sender gets its own change above dust. The two
pools are drawn one after the other, so when both senders are the same address the second loop
continues on what the first left.
-/

namespace OrdWallet.MultiSenderTxn

/-- `MultiSendTransactionArgument`. -/
structure MultiSendTransactionArgument where
  addr0 : String
  addr1 : String
  address0 : Address
  address1 : Address
  receiver : Address
  account0 : Account
  account1 : Account
  amount0 : ℕ
  amount1 : ℕ
  feePerVbytes : ℕ
  paidBySender : Bool

/-- The selection closure: draw each sender's pool until it covers that sender's due (the loops
break at `>=`); if either falls short, give both back and fail with both dues. -/
def selectUtxos (addr0 addr1 : String) (totalAmount0 totalAmount1 : ℕ) (m : UtxoManager) :
    Except (ℕ × ℕ) (List Utxo × ℕ × List Utxo × ℕ) × UtxoManager :=
  let d0 := m.drawBitcoin addr0 addValue (fun total => totalAmount0 ≤ total) 0
  let d1 := d0.manager.drawBitcoin addr1 addValue (fun total => totalAmount1 ≤ total) 0
  if d0.total < totalAmount0 || d1.total < totalAmount1 then
    (.error (totalAmount0, totalAmount1),
      (d1.manager.recordBtcUtxos addr0 d0.utxos).recordBtcUtxos addr1 d1.utxos)
  else (.ok (d0.utxos, d0.total, d1.utxos, d1.total), d1.manager)

/-- `build_transaction_with_fee`: split the fee in halves, the odd satoshi to the second sender;
draw both senders' UTXOs for their dues; pay the receiver the amount (less the fee when the
receiver pays it), and each sender its change above dust. -/
def buildTransactionWithFee (addr0 addr1 : String) (address0 address1 receiver : Address)
    (amount0 amount1 fee : ℕ) (paidBySender : Bool) (m : UtxoManager) :
    Except (ℕ × ℕ) (Transaction × List Utxo × List Utxo) × UtxoManager :=
  let fee0 := if fee % 2 = 0 then fee / 2 else (fee - 1) / 2
  let fee1 := if fee % 2 = 0 then fee / 2 else (fee - 1) / 2 + 1
  let totalAmount0 := if paidBySender then wrappingAdd 64 amount0 fee0 else amount0
  let totalAmount1 := if paidBySender then wrappingAdd 64 amount1 fee1 else amount1
  match selectUtxos addr0 addr1 totalAmount0 totalAmount1 m with
  | (.error e, m) => (.error e, m)
  | (.ok (utxoToSpend0, totalSpent0, utxoToSpend1, totalSpent1), m) =>
    let receiverValue :=
      if paidBySender then wrappingAdd 64 amount0 amount1
      else wrappingSub 64 (wrappingSub 64 (wrappingAdd 64 amount0 amount1) fee0) fee1
    (.ok (unsignedTransaction (utxoToSpend0.map unsignedInput ++ utxoToSpend1.map unsignedInput)
        (payTo receiver receiverValue ::
          (changeOutput address0 (wrappingSub 64 totalSpent0 totalAmount0) ++
            changeOutput address1 (wrappingSub 64 totalSpent1 totalAmount1))),
      utxoToSpend0, utxoToSpend1), m)

/-- The build of one fee-loop iteration. -/
def build (arg : MultiSendTransactionArgument) (fee : ℕ) (m : UtxoManager) :
    Option (Except (ℕ × ℕ) (Transaction × List Utxo × List Utxo) × UtxoManager) :=
  some (buildTransactionWithFee arg.addr0 arg.addr1 arg.address0 arg.address1 arg.receiver
    arg.amount0 arg.amount1 fee arg.paidBySender m)

/-- What the loop gives back between iterations: each sender's UTXOs to its pool. -/
def giveBack (arg : MultiSendTransactionArgument) (r : Transaction × List Utxo × List Utxo)
    (m : UtxoManager) : UtxoManager :=
  (m.recordBtcUtxos arg.addr0 r.2.1).recordBtcUtxos arg.addr1 r.2.2

/-- `transfer`: the fee loop over `build_transaction_with_fee`; the result keeps the fee. -/
def transfer (fuel : ℕ) (arg : MultiSendTransactionArgument) (m : UtxoManager) :
    LoopEnd (ℕ × ℕ) TransactionType :=
  (feeLoop (build arg) (·.1) (giveBack arg) arg.feePerVbytes fuel 0 m).map fun r =>
    .legoBitcoin arg.addr0 arg.addr1 arg.account0 arg.account1 arg.address0 arg.address1
      r.1.2.1 r.1.2.2 arg.amount0 arg.amount1 r.2 arg.paidBySender arg.receiver

variable {addr0 addr1 : String} {t0 t1 : ℕ} {m m' : UtxoManager}

/-- Giving back what the selection drew, also on its failure, restores the manager. -/
theorem selectUtxos_giveBack :
    let d0 := m.drawBitcoin addr0 addValue (fun total => t0 ≤ total) 0
    let d1 := d0.manager.drawBitcoin addr1 addValue (fun total => t1 ≤ total) 0
    (d1.manager.recordBtcUtxos addr0 d0.utxos).recordBtcUtxos addr1 d1.utxos = m :=
  UtxoManager.recordBtcUtxos_drawBitcoin_drawBitcoin

/-- A failed selection leaves the manager as it was, fails with both dues, and one of the two
loops emptied the pool it drew from: the first sender's, or what the first loop left of the
second sender's. -/
theorem selectUtxos_error {e : ℕ × ℕ} (h : selectUtxos addr0 addr1 t0 t1 m = (.error e, m')) :
    m' = m ∧ e = (t0, t1) ∧
      (sumValues (m.bitcoin addr0) < t0 ∨
        sumValues (((m.drawBitcoin addr0 addValue (fun total => t0 ≤ total) 0).manager).bitcoin
          addr1) < t1) := by
  dsimp only [selectUtxos] at h
  split at h
  · rename_i hshort
    simp only [Prod.mk.injEq, Except.error.injEq] at h
    obtain ⟨rfl, rfl⟩ := h
    refine ⟨selectUtxos_giveBack, rfl, ?_⟩
    rcases Bool.or_eq_true _ _ ▸ hshort with h0 | h1
    · left
      have hlt := of_decide_eq_true h0
      have hall : (m.drawBitcoin addr0 addValue (fun total => t0 ≤ total) 0).utxos = m.bitcoin addr0 :=
        UtxoManager.drawBitcoin_utxos_of_not_done (by simpa using hlt)
      rwa [UtxoManager.drawBitcoin_total, hall] at hlt
    · right
      have hlt := of_decide_eq_true h1
      set m₁ := (m.drawBitcoin addr0 addValue (fun total => t0 ≤ total) 0).manager
      have hall : (m₁.drawBitcoin addr1 addValue (fun total => t1 ≤ total) 0).utxos = m₁.bitcoin addr1 :=
        UtxoManager.drawBitcoin_utxos_of_not_done (by simpa using hlt)
      rwa [UtxoManager.drawBitcoin_total, hall] at hlt
  · simp at h

/-- A successful selection drew a prefix of each pool in turn whose sum reaches that sender's due. -/
theorem selectUtxos_ok {u0 u1 : List Utxo} {s0 s1 : ℕ}
    (h : selectUtxos addr0 addr1 t0 t1 m = (.ok (u0, s0, u1, s1), m')) :
    s0 = sumValues u0 ∧ s1 = sumValues u1 ∧ t0 ≤ s0 ∧ t1 ≤ s1 ∧
      u0 ++ (m.bitcoin addr0).drop u0.length = m.bitcoin addr0 ∧
      u1 ++ ((m.dropBitcoin addr0 u0.length).bitcoin addr1).drop u1.length =
        (m.dropBitcoin addr0 u0.length).bitcoin addr1 ∧
      m' = (m.dropBitcoin addr0 u0.length).dropBitcoin addr1 u1.length ∧
      (m'.recordBtcUtxos addr0 u0).recordBtcUtxos addr1 u1 = m := by
  dsimp only [selectUtxos] at h
  split at h
  · simp at h
  · rename_i hcover
    simp only [Prod.mk.injEq, Except.ok.injEq] at h
    obtain ⟨⟨rfl, rfl, rfl, rfl⟩, rfl⟩ := h
    simp only [Bool.or_eq_true, decide_eq_true_eq, not_or, Nat.not_lt] at hcover
    exact ⟨UtxoManager.drawBitcoin_total _ _ _, UtxoManager.drawBitcoin_total _ _ _, hcover.1,
      hcover.2, drawLoop_append_drop 0 _, drawLoop_append_drop 0 _, rfl, selectUtxos_giveBack⟩

variable {address0 address1 receiver : Address} {amount0 amount1 fee : ℕ} {paidBySender : Bool}

/-- A failed build left the manager as it was and reports both dues, one of which its pool,
as the first loop left it, cannot meet. -/
theorem buildTransactionWithFee_error {e : ℕ × ℕ}
    (h : buildTransactionWithFee addr0 addr1 address0 address1 receiver amount0 amount1 fee
      paidBySender m = (.error e, m')) :
    ∃ t0 t1, selectUtxos addr0 addr1 t0 t1 m = (.error e, m') := by
  dsimp only [buildTransactionWithFee] at h
  split at h
  · rename_i e₀ m₀ hs
    simp only [Prod.mk.injEq, Except.error.injEq] at h
    obtain ⟨rfl, rfl⟩ := h
    exact ⟨_, _, hs⟩
  · simp at h

/-- A successful build is a successful selection for the two dues and the transaction paying
the receiver and each sender's change above dust. -/
theorem buildTransactionWithFee_ok {txn : Transaction} {u0 u1 : List Utxo}
    (h : buildTransactionWithFee addr0 addr1 address0 address1 receiver amount0 amount1 fee
      paidBySender m = (.ok (txn, u0, u1), m')) :
    let fee0 := if fee % 2 = 0 then fee / 2 else (fee - 1) / 2
    let fee1 := if fee % 2 = 0 then fee / 2 else (fee - 1) / 2 + 1
    let t0 := if paidBySender then wrappingAdd 64 amount0 fee0 else amount0
    let t1 := if paidBySender then wrappingAdd 64 amount1 fee1 else amount1
    ∃ s0 s1, selectUtxos addr0 addr1 t0 t1 m = (.ok (u0, s0, u1, s1), m') ∧
      txn = unsignedTransaction (u0.map unsignedInput ++ u1.map unsignedInput)
        (payTo receiver (if paidBySender then wrappingAdd 64 amount0 amount1
            else wrappingSub 64 (wrappingSub 64 (wrappingAdd 64 amount0 amount1) fee0) fee1) ::
          (changeOutput address0 (wrappingSub 64 s0 t0) ++
            changeOutput address1 (wrappingSub 64 s1 t1))) := by
  dsimp only [buildTransactionWithFee] at h
  split at h
  · simp at h
  · rename_i u0₀ s0 u1₀ s1 m₀ hs
    simp only [Prod.mk.injEq, Except.ok.injEq] at h
    obtain ⟨⟨rfl, rfl, rfl⟩, rfl⟩ := h
    exact ⟨s0, s1, hs, rfl⟩

/-- Giving back both senders' UTXOs of a successful build restores the manager. -/
theorem build_restores (arg : MultiSendTransactionArgument) :
    Restores (build arg) (giveBack arg) := by
  intro f m b m' hb
  obtain ⟨s0, s1, hs, -⟩ := buildTransactionWithFee_ok (Option.some.inj hb)
  exact (selectUtxos_ok hs).2.2.2.2.2.2.2

variable {fuel : ℕ} {arg : MultiSendTransactionArgument}

/-- A transfer that returns a transaction returns the build, from the initial pools, at a fee
that is the recomputed fee of that transaction. -/
theorem transfer_ok {tt : TransactionType} (h : transfer fuel arg m = .returned (.ok tt) m') :
    ∃ fee txn u0 u1,
      buildTransactionWithFee arg.addr0 arg.addr1 arg.address0 arg.address1 arg.receiver
        arg.amount0 arg.amount1 fee arg.paidBySender m = (.ok (txn, u0, u1), m') ∧
      recomputedFee txn arg.feePerVbytes = fee ∧
      tt = .legoBitcoin arg.addr0 arg.addr1 arg.account0 arg.account1 arg.address0 arg.address1
        u0 u1 arg.amount0 arg.amount1 fee arg.paidBySender arg.receiver := by
  obtain ⟨⟨⟨txn, u0, u1⟩, fee⟩, hloop, rfl⟩ := LoopEnd.map_eq_returned_ok.mp h
  obtain ⟨hb, hfee⟩ := feeLoop_returned_ok (build_restores arg) hloop
  exact ⟨fee, txn, u0, u1, Option.some.inj hb, hfee, rfl⟩

/-- A transfer that fails returns the failure of a build from the initial pools. -/
theorem transfer_error {e : ℕ × ℕ} (h : transfer fuel arg m = .returned (.error e) m') :
    ∃ fee, buildTransactionWithFee arg.addr0 arg.addr1 arg.address0 arg.address1 arg.receiver
      arg.amount0 arg.amount1 fee arg.paidBySender m = (.error e, m') := by
  obtain ⟨fee, hb⟩ :=
    feeLoop_returned_error (build_restores arg) (LoopEnd.map_eq_returned_error.mp h)
  exact ⟨fee, Option.some.inj hb⟩

end OrdWallet.MultiSenderTxn
