import OrdWallet.Isolation

/-!
# A call reads and writes only the pools of its principals

A builder call reads and writes only the pools of the addresses it names, `Request.addrs`, and a
synchronization only those of its own address. So two managers that hold the same pools there
give the same result from a builder call, and still hold the same pools there after it: nothing
done to other principals' pools changes what a call sees or does. The same holds of each of the
five update methods, around its synchronizations and its retry, when its synchronizer acts alike
on pools that agree at the addresses it is given.
-/

namespace OrdWallet

namespace UtxoManager

/-- `m₁` and `m₂` hold the same pools at every address of `A`. -/
def Agree (A : List String) (m₁ m₂ : UtxoManager) : Prop := ∀ a ∈ A, SameAt a m₁ m₂

/-- Two results of one step on managers: the same value, and managers that agree on `A`. -/
structure AgreeResult {α : Type} (A : List String) (p q : α × UtxoManager) : Prop where
  value_eq : p.1 = q.1
  agree : Agree A p.2 q.2

namespace SameAt

variable {a : String} {m₁ m₂ : UtxoManager}

theorem symm (h : SameAt a m₁ m₂) : SameAt a m₂ m₁ := ⟨h.1.symm, fun r => (h.2 r).symm⟩

/-- Each operation of the manager, at any address, keeps two managers that hold the same pools
at `a` holding the same pools there. -/
theorem dropBitcoin (h : SameAt a m₁ m₂) (addr : String) (k : ℕ) :
    SameAt a (m₁.dropBitcoin addr k) (m₂.dropBitcoin addr k) :=
  ⟨by simp [h.1], h.2⟩

theorem dropRunic (h : SameAt a m₁ m₂) (addr : String) (runeid : RuneId) (k : ℕ) :
    SameAt a (m₁.dropRunic addr runeid k) (m₂.dropRunic addr runeid k) :=
  ⟨h.1, fun r => by simp [h.2 r]⟩

theorem recordBtcUtxos (h : SameAt a m₁ m₂) (addr : String) (utxos : List Utxo) :
    SameAt a (m₁.recordBtcUtxos addr utxos) (m₂.recordBtcUtxos addr utxos) :=
  ⟨by simp [h.1], h.2⟩

theorem recordRunicUtxos (h : SameAt a m₁ m₂) (addr : String) (runeid : RuneId)
    (utxos : List RunicUtxo) :
    SameAt a (m₁.recordRunicUtxos addr runeid utxos) (m₂.recordRunicUtxos addr runeid utxos) :=
  ⟨h.1, fun r => by simp [h.2 r]⟩

end SameAt

/-- Managers that hold the same pools at every address are equal. -/
theorem eq_of_sameAt {m₁ m₂ : UtxoManager} (h : ∀ a, SameAt a m₁ m₂) : m₁ = m₂ :=
  UtxoManager.ext (funext fun a => (h a).1.symm) (funext fun a => funext fun r => ((h a).2 r).symm)

namespace Agree

variable {A : List String} {m₁ m₂ : UtxoManager} {addr : String}

theorem bitcoin_eq (h : Agree A m₁ m₂) (ha : addr ∈ A) : m₁.bitcoin addr = m₂.bitcoin addr :=
  (h addr ha).1.symm

theorem runic_eq (h : Agree A m₁ m₂) (ha : addr ∈ A) (runeid : RuneId) :
    m₁.runic addr runeid = m₂.runic addr runeid :=
  ((h addr ha).2 runeid).symm

theorem dropBitcoin (h : Agree A m₁ m₂) (addr : String) (k : ℕ) :
    Agree A (m₁.dropBitcoin addr k) (m₂.dropBitcoin addr k) :=
  fun a ha => (h a ha).dropBitcoin addr k

theorem dropRunic (h : Agree A m₁ m₂) (addr : String) (runeid : RuneId) (k : ℕ) :
    Agree A (m₁.dropRunic addr runeid k) (m₂.dropRunic addr runeid k) :=
  fun a ha => (h a ha).dropRunic addr runeid k

theorem recordBtcUtxos (h : Agree A m₁ m₂) (addr : String) (utxos : List Utxo) :
    Agree A (m₁.recordBtcUtxos addr utxos) (m₂.recordBtcUtxos addr utxos) :=
  fun a ha => (h a ha).recordBtcUtxos addr utxos

theorem recordRunicUtxos (h : Agree A m₁ m₂) (addr : String) (runeid : RuneId)
    (utxos : List RunicUtxo) :
    Agree A (m₁.recordRunicUtxos addr runeid utxos) (m₂.recordRunicUtxos addr runeid utxos) :=
  fun a ha => (h a ha).recordRunicUtxos addr runeid utxos

variable {β : Type}

/-- A selection loop on a pool at `A` draws the same UTXOs from managers that agree on `A`. -/
theorem drawBitcoin (h : Agree A m₁ m₂) (ha : addr ∈ A) (add : β → Utxo → β) (done : β → Bool)
    (acc : β) :
    (m₁.drawBitcoin addr add done acc).utxos = (m₂.drawBitcoin addr add done acc).utxos ∧
      (m₁.drawBitcoin addr add done acc).total = (m₂.drawBitcoin addr add done acc).total ∧
      Agree A (m₁.drawBitcoin addr add done acc).manager
        (m₂.drawBitcoin addr add done acc).manager := by
  dsimp only [UtxoManager.drawBitcoin]
  rw [h.bitcoin_eq ha]
  exact ⟨rfl, rfl, h.dropBitcoin _ _⟩

theorem drawRunic (h : Agree A m₁ m₂) (ha : addr ∈ A) (runeid : RuneId) (add : β → RunicUtxo → β)
    (done : β → Bool) (acc : β) :
    (m₁.drawRunic addr runeid add done acc).utxos = (m₂.drawRunic addr runeid add done acc).utxos ∧
      (m₁.drawRunic addr runeid add done acc).total =
        (m₂.drawRunic addr runeid add done acc).total ∧
      Agree A (m₁.drawRunic addr runeid add done acc).manager
        (m₂.drawRunic addr runeid add done acc).manager := by
  dsimp only [UtxoManager.drawRunic]
  rw [h.runic_eq ha runeid]
  exact ⟨rfl, rfl, h.dropRunic _ _ _⟩

theorem getBitcoinBalance_eq (h : Agree A m₁ m₂) (ha : addr ∈ A) :
    m₁.getBitcoinBalance addr = m₂.getBitcoinBalance addr := by
  unfold getBitcoinBalance
  rw [h.bitcoin_eq ha]

theorem getRunestoneBalance_eq (h : Agree A m₁ m₂) (ha : addr ∈ A) (runeid : RuneId) :
    m₁.getRunestoneBalance addr runeid = m₂.getRunestoneBalance addr runeid := by
  unfold getRunestoneBalance
  rw [h.runic_eq ha]

/-- A change of the pools made only on a condition keeps pools agreeing, when the change does. -/
theorem ite {x₁ x₂ : UtxoManager} (hx : Agree A x₁ x₂) (h : Agree A m₁ m₂) {c : Prop}
    [Decidable c] : Agree A (if c then x₁ else m₁) (if c then x₂ else m₂) := by
  split
  · exact hx
  · exact h

end Agree

/-- Two results that agree, once named: the same value, with managers that agree. -/
theorem AgreeResult.exists_of_eq {α : Type} {A : List String} {p q s₁ s₂ : α × UtxoManager}
    (h : AgreeResult A p q) (hp : p = s₁) (hq : q = s₂) :
    ∃ x n₁ n₂, s₁ = (x, n₁) ∧ s₂ = (x, n₂) ∧ Agree A n₁ n₂ := by
  subst hp hq
  exact ⟨p.1, p.2, q.2, rfl, by rw [h.value_eq], h.agree⟩

end UtxoManager

open UtxoManager

section Select

variable {ε : Type} {A : List String} {m₁ m₂ : UtxoManager} {addr : String}

/-- The plain selection closure on a pool at `A` gives the same result from managers that agree
on `A`, and leaves managers that agree on `A`. -/
theorem selectBitcoin_agree (h : Agree A m₁ m₂) (ha : addr ∈ A) (target : ℕ) (err : ε) :
    AgreeResult A (selectBitcoin addr target err m₁) (selectBitcoin addr target err m₂) := by
  obtain ⟨hu, ht, hm⟩ := h.drawBitcoin ha addValue (fun sum => target < sum) 0
  simp only [selectBitcoin, hu, ht]
  split_ifs
  · exact ⟨rfl, hm.recordBtcUtxos _ _⟩
  · exact ⟨rfl, hm⟩

theorem selectRunic_agree (h : Agree A m₁ m₂) (ha : addr ∈ A) (runeid : RuneId) (done : ℕ → Bool)
    (target : ℕ) (err : ε) :
    AgreeResult A (selectRunic addr runeid done target err m₁)
      (selectRunic addr runeid done target err m₂) := by
  obtain ⟨hu, ht, hm⟩ := h.drawRunic ha runeid addRunic (fun acc => done acc.1) (0, 0)
  simp only [selectRunic, hu, ht]
  split_ifs
  · exact ⟨rfl, hm.recordRunicUtxos _ _ _⟩
  · exact ⟨rfl, hm⟩

end Select

/-- Two ends of one loop from managers that agree on `A`: the same end, with managers that agree
on `A`. -/
inductive LoopEnd.Agree {ε α : Type} (A : List String) : LoopEnd ε α → LoopEnd ε α → Prop
  | returned {r : Except ε α} {m₁ m₂ : UtxoManager} :
      UtxoManager.Agree A m₁ m₂ → LoopEnd.Agree A (.returned r m₁) (.returned r m₂)
  | trapped : LoopEnd.Agree A .trapped .trapped
  | outOfFuel : LoopEnd.Agree A .outOfFuel .outOfFuel

namespace LoopEnd.Agree

variable {ε ε' α γ : Type} {A : List String} {r₁ r₂ : LoopEnd ε α}

theorem map (f : α → γ) (h : LoopEnd.Agree A r₁ r₂) : LoopEnd.Agree A (r₁.map f) (r₂.map f) := by
  cases h with
  | returned hm => exact .returned hm
  | trapped => exact .trapped
  | outOfFuel => exact .outOfFuel

theorem mapError (f : ε → ε') (h : LoopEnd.Agree A r₁ r₂) :
    LoopEnd.Agree A (r₁.mapError f) (r₂.mapError f) := by
  cases h with
  | returned hm =>
    rename_i r _ _
    cases r <;> exact .returned hm
  | trapped => exact .trapped
  | outOfFuel => exact .outOfFuel

end LoopEnd.Agree

/-- A build from managers that agree on `A` either panics from both or returns the same value from
both, with managers that agree on `A`. -/
theorem AgreeResult.option_cases {α : Type} {A : List String} {o₁ o₂ : Option (α × UtxoManager)}
    (h : Option.Rel (AgreeResult A) o₁ o₂) :
    (o₁ = none ∧ o₂ = none) ∨ ∃ x n₁ n₂, o₁ = some (x, n₁) ∧ o₂ = some (x, n₂) ∧ Agree A n₁ n₂ := by
  cases h with
  | none => exact .inl ⟨rfl, rfl⟩
  | some hab =>
    rename_i a b
    exact .inr ⟨a.1, a.2, b.2, rfl, by rw [hab.value_eq], hab.agree⟩

section Loop

variable {ε β : Type} {A : List String}
  {build : ℕ → UtxoManager → Option (Except ε β × UtxoManager)} {txnOf : β → Transaction}
  {giveBack : β → UtxoManager → UtxoManager} {feePerVbytes : ℕ}

/-- A fee loop whose build and give-back keep managers agreeing on `A` ends the same way from
managers that agree on `A`, with managers that agree on `A`. -/
theorem feeLoop_agree
    (hbuild : ∀ f m₁ m₂, Agree A m₁ m₂ → Option.Rel (AgreeResult A) (build f m₁) (build f m₂))
    (hgive : ∀ b m₁ m₂, Agree A m₁ m₂ → Agree A (giveBack b m₁) (giveBack b m₂))
    (fuel f : ℕ) {m₁ m₂ : UtxoManager} (h : Agree A m₁ m₂) :
    LoopEnd.Agree A (feeLoop build txnOf giveBack feePerVbytes fuel f m₁)
      (feeLoop build txnOf giveBack feePerVbytes fuel f m₂) := by
  induction fuel generalizing f m₁ m₂ with
  | zero => exact .outOfFuel
  | succ fuel ih =>
    simp only [feeLoop]
    rcases AgreeResult.option_cases (hbuild f m₁ m₂ h) with ⟨h₁, h₂⟩ | ⟨x, n₁, n₂, h₁, h₂, hn⟩
    · rw [h₁, h₂]
      exact .trapped
    · rw [h₁, h₂]
      rcases x with e | b
      · exact .returned hn
      · dsimp only
        split_ifs
        · exact .returned hn
        · exact ih _ (hgive b n₁ n₂ hn)

end Loop

namespace PlainTxn

variable {A : List String} {m₁ m₂ : UtxoManager} {addr : String}

theorem buildTransactionWithFee_agree (h : Agree A m₁ m₂) (ha : addr ∈ A)
    (fromAddress toAddress : Address) (amount fee : ℕ) (paidBySender : Bool) :
    AgreeResult A (buildTransactionWithFee addr fromAddress toAddress amount fee paidBySender m₁)
      (buildTransactionWithFee addr fromAddress toAddress amount fee paidBySender m₂) := by
  dsimp only [buildTransactionWithFee]
  generalize hs₁ : selectBitcoin addr _ _ m₁ = s₁
  generalize hs₂ : selectBitcoin addr _ _ m₂ = s₂
  obtain ⟨x, n₁, n₂, rfl, rfl, hn⟩ := (selectBitcoin_agree h ha _ _).exists_of_eq hs₁ hs₂
  rcases x with _ | ⟨_, _⟩ <;> exact ⟨rfl, hn⟩

theorem transfer_agree (fuel : ℕ) (h : Agree A m₁ m₂) (ha : addr ∈ A) (account : Account)
    (fromAddress toAddress : Address) (amount : ℕ) (paidBySender : Bool) (feePerVbytes : ℕ) :
    LoopEnd.Agree A
      (transfer fuel addr account fromAddress toAddress amount paidBySender feePerVbytes m₁)
      (transfer fuel addr account fromAddress toAddress amount paidBySender feePerVbytes m₂) := by
  unfold transfer
  refine (feeLoop_agree ?_ ?_ fuel 0 h).map _
  · exact fun _ _ _ hm => .some (buildTransactionWithFee_agree hm ha _ _ _ _ _)
  · exact fun _ _ _ hm => hm.recordBtcUtxos _ _

end PlainTxn

namespace MultiSenderTxn

variable {A : List String} {m₁ m₂ : UtxoManager} {addr0 addr1 : String}

theorem selectUtxos_agree (h : Agree A m₁ m₂) (h0 : addr0 ∈ A) (h1 : addr1 ∈ A)
    (totalAmount0 totalAmount1 : ℕ) :
    AgreeResult A (selectUtxos addr0 addr1 totalAmount0 totalAmount1 m₁)
      (selectUtxos addr0 addr1 totalAmount0 totalAmount1 m₂) := by
  obtain ⟨hu0, ht0, hm0⟩ := h.drawBitcoin h0 addValue (fun total => totalAmount0 ≤ total) 0
  obtain ⟨hu1, ht1, hm1⟩ := hm0.drawBitcoin h1 addValue (fun total => totalAmount1 ≤ total) 0
  simp only [selectUtxos, hu0, ht0, hu1, ht1]
  split_ifs
  · exact ⟨rfl, (hm1.recordBtcUtxos _ _).recordBtcUtxos _ _⟩
  · exact ⟨rfl, hm1⟩

theorem buildTransactionWithFee_agree (h : Agree A m₁ m₂) (h0 : addr0 ∈ A) (h1 : addr1 ∈ A)
    (address0 address1 receiver : Address) (amount0 amount1 fee : ℕ) (paidBySender : Bool) :
    AgreeResult A
      (buildTransactionWithFee addr0 addr1 address0 address1 receiver amount0 amount1 fee
        paidBySender m₁)
      (buildTransactionWithFee addr0 addr1 address0 address1 receiver amount0 amount1 fee
        paidBySender m₂) := by
  dsimp only [buildTransactionWithFee]
  generalize hs₁ : selectUtxos addr0 addr1 _ _ m₁ = s₁
  generalize hs₂ : selectUtxos addr0 addr1 _ _ m₂ = s₂
  obtain ⟨x, n₁, n₂, rfl, rfl, hn⟩ := (selectUtxos_agree h h0 h1 _ _).exists_of_eq hs₁ hs₂
  rcases x with _ | ⟨_, _, _, _⟩ <;> exact ⟨rfl, hn⟩

theorem transfer_agree (fuel : ℕ) {arg : MultiSendTransactionArgument} (h : Agree A m₁ m₂)
    (h0 : arg.addr0 ∈ A) (h1 : arg.addr1 ∈ A) :
    LoopEnd.Agree A (transfer fuel arg m₁) (transfer fuel arg m₂) := by
  unfold transfer
  refine (feeLoop_agree ?_ ?_ fuel 0 h).map _
  · exact fun _ _ _ hm => .some (buildTransactionWithFee_agree hm h0 h1 _ _ _ _ _ _ _)
  · exact fun _ _ _ hm => (hm.recordBtcUtxos _ _).recordBtcUtxos _ _

end MultiSenderTxn

namespace RunestoneTxn

variable {A : List String} {m₁ m₂ : UtxoManager} {senderAddr receiverAddr : String}
  {paidBySender : Bool}

theorem buildTransactionWithFee_agree (h : Agree A m₁ m₂) (hs : senderAddr ∈ A)
    (hp : (if paidBySender then senderAddr else receiverAddr) ∈ A) (runeid : RuneId) (amount : ℕ)
    (senderAddress receiverAddress : Address) (fee postage : ℕ) :
    Option.Rel (AgreeResult A)
      (buildTransactionWithFee runeid amount senderAddr receiverAddr senderAddress receiverAddress
        fee paidBySender postage m₁)
      (buildTransactionWithFee runeid amount senderAddr receiverAddr senderAddress receiverAddress
        fee paidBySender postage m₂) := by
  dsimp only [buildTransactionWithFee]
  generalize hs₁ : selectRunic senderAddr _ _ _ _ m₁ = s₁
  generalize hs₂ : selectRunic senderAddr _ _ _ _ m₂ = s₂
  obtain ⟨x, n₁, n₂, rfl, rfl, hn⟩ := (selectRunic_agree h hs _ _ _ _).exists_of_eq hs₁ hs₂
  rcases x with _ | ⟨_, _, _⟩
  · exact .some ⟨rfl, hn⟩
  dsimp only
  split
  · exact .none
  generalize hf₁ : selectBitcoin _ _ _ n₁ = f₁
  generalize hf₂ : selectBitcoin _ _ _ n₂ = f₂
  obtain ⟨y, k₁, k₂, rfl, rfl, hk⟩ := (selectBitcoin_agree hn hp _ _).exists_of_eq hf₁ hf₂
  rcases y with _ | ⟨_, _⟩ <;> exact .some ⟨rfl, hk⟩

theorem transfer_agree (fuel : ℕ) {args : RuneTransferArgs} (h : Agree A m₁ m₂)
    (hs : args.senderAddr ∈ A)
    (hp : (if args.paidBySender then args.senderAddr else args.receiverAddr) ∈ A) :
    LoopEnd.Agree A (transfer fuel args m₁) (transfer fuel args m₂) := by
  unfold transfer
  refine (feeLoop_agree ?_ ?_ fuel 0 h).map _
  · exact fun _ _ _ hm => buildTransactionWithFee_agree hm hs hp _ _ _ _ _ _
  · exact fun _ _ _ hm => (hm.recordRunicUtxos _ _ _).recordBtcUtxos _ _

end RunestoneTxn

namespace CombinedTxn

variable {A : List String} {m₁ m₂ : UtxoManager} {fromAddr receiverAddr : String}

theorem selectFeeUtxos_agree (h : Agree A m₁ m₂) (hr : receiverAddr ∈ A)
    (runeAmount btcAmount fee actualRequiredBtc btcTotalSpent : ℕ) (paidBySender : Bool) :
    AgreeResult A
      (selectFeeUtxos receiverAddr runeAmount btcAmount fee actualRequiredBtc btcTotalSpent
        paidBySender m₁)
      (selectFeeUtxos receiverAddr runeAmount btcAmount fee actualRequiredBtc btcTotalSpent
        paidBySender m₂) := by
  unfold selectFeeUtxos
  split_ifs
  · exact ⟨rfl, h⟩
  · exact ⟨rfl, h⟩
  · exact selectBitcoin_agree h hr _ _

theorem buildTransactionWithFee_agree (h : Agree A m₁ m₂) (hf : fromAddr ∈ A)
    (hr : receiverAddr ∈ A) (senderAddress receiverAddress : Address) (runeid : RuneId)
    (runeAmount btcAmount postage fee : ℕ) (paidBySender : Bool) :
    Option.Rel (AgreeResult A)
      (buildTransactionWithFee fromAddr receiverAddr senderAddress receiverAddress runeid runeAmount
        btcAmount postage fee paidBySender m₁)
      (buildTransactionWithFee fromAddr receiverAddr senderAddress receiverAddress runeid runeAmount
        btcAmount postage fee paidBySender m₂) := by
  dsimp only [buildTransactionWithFee]
  generalize hs₁ : selectRunic fromAddr _ _ _ _ m₁ = s₁
  generalize hs₂ : selectRunic fromAddr _ _ _ _ m₂ = s₂
  obtain ⟨x, n₁, n₂, rfl, rfl, hn⟩ := (selectRunic_agree h hf _ _ _ _).exists_of_eq hs₁ hs₂
  rcases x with _ | ⟨_, _, _⟩
  · exact .some ⟨rfl, hn⟩
  dsimp only
  generalize hb₁ : selectBitcoin fromAddr _ _ n₁ = b₁
  generalize hb₂ : selectBitcoin fromAddr _ _ n₂ = b₂
  obtain ⟨y, k₁, k₂, rfl, rfl, hk⟩ := (selectBitcoin_agree hn hf _ _).exists_of_eq hb₁ hb₂
  rcases y with _ | ⟨_, _⟩
  · exact .some ⟨rfl, hk⟩
  dsimp only
  split
  · exact .none
  generalize hf₁ : selectFeeUtxos receiverAddr _ _ _ _ _ _ k₁ = f₁
  generalize hf₂ : selectFeeUtxos receiverAddr _ _ _ _ _ _ k₂ = f₂
  obtain ⟨z, l₁, l₂, rfl, rfl, hl⟩ := (selectFeeUtxos_agree hk hr _ _ _ _ _ _).exists_of_eq hf₁ hf₂
  rcases z with _ | ⟨_, _⟩ <;> exact .some ⟨rfl, hl⟩

theorem transfer_agree (fuel : ℕ) {req : CombinedTransactionRequest} (h : Agree A m₁ m₂)
    (hf : req.fromAddr ∈ A) (hr : req.receiverAddr ∈ A) :
    LoopEnd.Agree A (transfer fuel req m₁) (transfer fuel req m₂) := by
  unfold transfer
  refine (feeLoop_agree ?_ ?_ fuel 0 h).map _
  · exact fun _ _ _ hm => buildTransactionWithFee_agree hm hf hr _ _ _ _ _ _ _ _
  · exact fun _ _ _ hm => ((hm.recordRunicUtxos _ _ _).recordBtcUtxos _ _).recordBtcUtxos _ _

end CombinedTxn

/-- A builder call from managers that agree on the pools it draws from, and perhaps more, returns
the same result from both, with managers that agree there. -/
theorem Request.transfer_agree (fuel : ℕ) {req : Request} {A : List String}
    (hA : ∀ a ∈ req.addrs, a ∈ A) {m₁ m₂ : UtxoManager} (h : Agree A m₁ m₂) :
    LoopEnd.Agree A (req.transfer fuel m₁) (req.transfer fuel m₂) := by
  cases req <;> simp only [Request.addrs, List.mem_cons, List.not_mem_nil, or_false,
    forall_eq_or_imp, forall_eq] at hA
  case bitcoin => exact (PlainTxn.transfer_agree fuel h hA _ _ _ _ _ _).mapError _
  case legoBitcoin => exact (MultiSenderTxn.transfer_agree fuel h hA.1 hA.2).mapError _
  case runestone => exact (RunestoneTxn.transfer_agree fuel h hA.1 hA.2).mapError _
  case combined => exact (CombinedTxn.transfer_agree fuel h hA.1 hA.2).mapError _

/-! ### Methods -/

/-- Two outcomes of a method that agree on `A`: the same transaction, message or trap, or both out
of fuel, with pools that agree on `A`. -/
inductive Outcome.Agree (A : List String) : Outcome → Outcome → Prop
  | submitted {tt : TransactionType} {m₁ m₂ : UtxoManager} :
      UtxoManager.Agree A m₁ m₂ → Outcome.Agree A (.submitted tt m₁) (.submitted tt m₂)
  | trap {msg : String} {m₁ m₂ : UtxoManager} :
      UtxoManager.Agree A m₁ m₂ → Outcome.Agree A (.trap msg m₁) (.trap msg m₂)
  | panic {m₁ m₂ : UtxoManager} :
      UtxoManager.Agree A m₁ m₂ → Outcome.Agree A (.panic m₁) (.panic m₂)
  | outOfFuel : Outcome.Agree A .outOfFuel .outOfFuel

theorem Outcome.Agree.ite {A : List String} {c : Prop} [Decidable c] {a₁ a₂ b₁ b₂ : Outcome}
    (ha : Outcome.Agree A a₁ a₂) (hb : Outcome.Agree A b₁ b₂) :
    Outcome.Agree A (if c then a₁ else b₁) (if c then a₂ else b₂) := by
  split
  · exact ha
  · exact hb

/-- What a method does with a builder call's result ends alike when the results agree, the pools
it commits on a trap agree, and its handling of an error does. -/
theorem afterTransfer_agree {ε : Type} {A : List String} {r₁ r₂ : LoopEnd ε TransactionType}
    {c₁ c₂ : UtxoManager} {k₁ k₂ : ε → UtxoManager → Outcome} (hr : LoopEnd.Agree A r₁ r₂)
    (hc : Agree A c₁ c₂) (hk : ∀ e n₁ n₂, Agree A n₁ n₂ → Outcome.Agree A (k₁ e n₁) (k₂ e n₂)) :
    Outcome.Agree A (afterTransfer r₁ c₁ k₁) (afterTransfer r₂ c₂ k₂) := by
  cases hr with
  | returned hm =>
    rename_i r _ _
    cases r with
    | error e => exact hk e _ _ hm
    | ok tt => exact .submitted hm
  | trapped => exact .panic hc
  | outOfFuel => exact .outOfFuel

/-- The retry after an insufficient balance ends alike from pools that agree where its request
draws. -/
theorem retryTransfer_agree {A : List String} {req : Request} (fuel : ℕ)
    (hA : ∀ a ∈ req.addrs, a ∈ A) {c₁ c₂ n₁ n₂ : UtxoManager} (hc : Agree A c₁ c₂)
    (hn : Agree A n₁ n₂) :
    Outcome.Agree A (retryTransfer fuel req c₁ n₁) (retryTransfer fuel req c₂ n₂) :=
  afterTransfer_agree (Request.transfer_agree fuel hA hn) hc fun _ _ _ _ => .trap hc

section Methods

variable {sync : String → ℕ → UtxoManager → UtxoManager} {probe fuel : ℕ} {A : List String}
  {m₁ m₂ : UtxoManager}
  (hsync : ∀ addr target n₁ n₂, Agree A n₁ n₂ →
    Agree A (sync addr target n₁) (sync addr target n₂))
include hsync

/-- `withdraw_bitcoin` ends alike from pools that agree at its caller's address. -/
theorem withdrawBitcoin_agree (h : Agree A m₁ m₂) {caller : Party} (hc : caller.addr ∈ A)
    (toAddress : Address) (amount : ℕ) (feePerVbytes : Option ℕ) :
    Outcome.Agree A (withdrawBitcoin sync probe fuel caller toAddress amount feePerVbytes m₁)
      (withdrawBitcoin sync probe fuel caller toAddress amount feePerVbytes m₂) := by
  have hreq : ∀ a ∈ (Request.bitcoin caller.addr caller.account caller.address toAddress amount
      true (feePerVbytes.getD probe)).addrs, a ∈ A := by simpa [Request.addrs] using hc
  dsimp only [withdrawBitcoin]
  rw [h.getBitcoinBalance_eq hc]
  generalize decide (m₂.getBitcoinBalance caller.addr < amount) = s
  generalize hn₁ : (if s = true then sync caller.addr amount m₁ else m₁) = n₁,
    hn₂ : (if s = true then sync caller.addr amount m₂ else m₂) = n₂
  have hn : Agree A n₁ n₂ := by
    subst hn₁ hn₂
    exact (hsync _ _ _ _ h).ite h
  rw [hn.getBitcoinBalance_eq hc]
  exact .ite (.trap hn) <| afterTransfer_agree (PlainTxn.transfer_agree fuel hn hc _ _ _ _ _ _) hn
    fun _ _ _ hk => .ite (.trap hn) <|
      retryTransfer_agree fuel hreq (hsync _ _ _ _ hk) (hsync _ _ _ _ hk)

/-- `withdraw_bitcoin_from_multiple_addresses` ends alike from pools that agree at the addresses
of both principals. -/
theorem withdrawBitcoinFromMultipleAddresses_agree (h : Agree A m₁ m₂) {principal0 caller : Party}
    (h0 : principal0.addr ∈ A) (h1 : caller.addr ∈ A) (toAddress : Address) (amount : ℕ)
    (feePerVbytes : Option ℕ) :
    Outcome.Agree A
      (withdrawBitcoinFromMultipleAddresses sync probe fuel principal0 caller toAddress amount
        feePerVbytes m₁)
      (withdrawBitcoinFromMultipleAddresses sync probe fuel principal0 caller toAddress amount
        feePerVbytes m₂) := by
  have hreq : ∀ a ∈ (Request.legoBitcoin (multipleAddressesArgument principal0 caller toAddress
      amount (feePerVbytes.getD probe))).addrs, a ∈ A := by
    simpa [Request.addrs, multipleAddressesArgument] using ⟨h0, h1⟩
  dsimp only [withdrawBitcoinFromMultipleAddresses]
  rw [h.getBitcoinBalance_eq h0, h.getBitcoinBalance_eq h1]
  generalize decide (m₂.getBitcoinBalance principal0.addr < _) = s0
  generalize decide (m₂.getBitcoinBalance caller.addr < _) = s1
  generalize hk₁ : (if s0 = true then sync principal0.addr _ m₁ else m₁) = k₁,
    hk₂ : (if s0 = true then sync principal0.addr _ m₂ else m₂) = k₂
  have hk : Agree A k₁ k₂ := by
    subst hk₁ hk₂
    exact (hsync _ _ _ _ h).ite h
  generalize hn₁ : (if s1 = true then sync caller.addr _ k₁ else k₁) = n₁,
    hn₂ : (if s1 = true then sync caller.addr _ k₂ else k₂) = n₂
  have hn : Agree A n₁ n₂ := by
    subst hn₁ hn₂
    exact (hsync _ _ _ _ hk).ite hk
  rw [hn.getBitcoinBalance_eq h0, hn.getBitcoinBalance_eq h1]
  refine .ite (.trap hn) <|
    afterTransfer_agree (MultiSenderTxn.transfer_agree fuel hn h0 h1) hn fun r j₁ j₂ hj => ?_
  generalize (decide (_ > n₂.getBitcoinBalance principal0.addr) && !s0) = t0
  generalize (decide (_ > n₂.getBitcoinBalance caller.addr) && !s1) = t1
  generalize hl₁ : (if t0 = true then sync principal0.addr _ j₁ else j₁) = l₁,
    hl₂ : (if t0 = true then sync principal0.addr _ j₂ else j₂) = l₂
  have hl : Agree A l₁ l₂ := by
    subst hl₁ hl₂
    exact (hsync _ _ _ _ hj).ite hj
  generalize ho₁ : (if t1 = true then sync caller.addr _ l₁ else l₁) = o₁,
    ho₂ : (if t1 = true then sync caller.addr _ l₂ else l₂) = o₂
  have ho : Agree A o₁ o₂ := by
    subst ho₁ ho₂
    exact (hsync _ _ _ _ hl).ite hl
  rw [ho.getBitcoinBalance_eq h0, ho.getBitcoinBalance_eq h1]
  generalize hc₁ : (if (t0 || t1) = true then o₁ else n₁) = c₁,
    hc₂ : (if (t0 || t1) = true then o₂ else n₂) = c₂
  have hc : Agree A c₁ c₂ := by
    subst hc₁ hc₂
    exact ho.ite hn
  exact .ite (.trap hc) (retryTransfer_agree fuel hreq hc ho)

/-- `withdraw_runestone` ends alike from pools that agree at its caller's address. -/
theorem withdrawRunestone_agree (h : Agree A m₁ m₂) {caller : Party} (hc : caller.addr ∈ A)
    (runeid : RuneId) (amount : ℕ) (toAddr : String) (receiver : Address)
    (feePerVbytes : Option ℕ) :
    Outcome.Agree A
      (withdrawRunestone sync probe fuel caller runeid amount toAddr receiver feePerVbytes m₁)
      (withdrawRunestone sync probe fuel caller runeid amount toAddr receiver feePerVbytes m₂) := by
  have hreq : ∀ a ∈ (Request.runestone (runestoneArgs caller runeid amount toAddr receiver
      (feePerVbytes.getD probe))).addrs, a ∈ A := by simpa [Request.addrs, runestoneArgs] using hc
  dsimp only [withdrawRunestone]
  rw [h.getRunestoneBalance_eq hc]
  generalize decide (m₂.getRunestoneBalance caller.addr runeid < amount) = s
  generalize hn₁ : (if s = true then sync caller.addr u64Max m₁ else m₁) = n₁,
    hn₂ : (if s = true then sync caller.addr u64Max m₂ else m₂) = n₂
  have hn : Agree A n₁ n₂ := by
    subst hn₁ hn₂
    exact (hsync _ _ _ _ h).ite h
  rw [hn.getRunestoneBalance_eq hc]
  refine .ite (.trap hn) <| afterTransfer_agree
    (RunestoneTxn.transfer_agree fuel hn hc (by simpa [runestoneArgs] using hc)) hn
    fun _ k₁ k₂ hk => ?_
  have hk' := hsync caller.addr u64Max _ _ hk
  rw [hk.getBitcoinBalance_eq hc, hk'.getBitcoinBalance_eq hc]
  exact .ite (.ite (.trap hk') (retryTransfer_agree fuel hreq hk' hk'))
    (retryTransfer_agree fuel hreq hn hk)

/-- `withdraw_runestone_with_fee_paid_by_receiver` ends alike from pools that agree at the
addresses of the sender and the receiver. -/
theorem withdrawRunestoneWithFeePaidByReceiver_agree (h : Agree A m₁ m₂) {caller toParty : Party}
    (hc : caller.addr ∈ A) (ht : toParty.addr ∈ A) (runeid : RuneId) (amount : ℕ)
    (feePerVbytes : Option ℕ) :
    Outcome.Agree A
      (withdrawRunestoneWithFeePaidByReceiver sync probe fuel caller toParty runeid amount
        feePerVbytes m₁)
      (withdrawRunestoneWithFeePaidByReceiver sync probe fuel caller toParty runeid amount
        feePerVbytes m₂) := by
  have hreq : ∀ a ∈ (Request.runestone (feePaidByReceiverArgs caller toParty runeid amount
      (feePerVbytes.getD probe))).addrs, a ∈ A := by
    simpa [Request.addrs, feePaidByReceiverArgs] using hc
  dsimp only [withdrawRunestoneWithFeePaidByReceiver]
  rw [h.getBitcoinBalance_eq ht, h.getRunestoneBalance_eq hc]
  generalize decide (m₂.getRunestoneBalance caller.addr runeid < amount) = s
  generalize hn₁ : (if s = true then sync caller.addr u64Max m₁ else m₁) = n₁,
    hn₂ : (if s = true then sync caller.addr u64Max m₂ else m₂) = n₂
  have hn : Agree A n₁ n₂ := by
    subst hn₁ hn₂
    exact (hsync _ _ _ _ h).ite h
  rw [hn.getRunestoneBalance_eq hc]
  refine .ite (.trap hn) <| afterTransfer_agree
    (RunestoneTxn.transfer_agree fuel hn hc (by simpa [feePaidByReceiverArgs] using hc)) hn
    fun _ k₁ k₂ hk => ?_
  have hk' := hsync toParty.addr u64Max _ _ hk
  rw [hk'.getBitcoinBalance_eq ht]
  exact .ite (.ite (.trap hk') (retryTransfer_agree fuel hreq hk' hk'))
    (retryTransfer_agree fuel hreq hn hk)

/-- `withdraw_combined` ends alike from pools that agree at the addresses of the sender and the
receiver. -/
theorem withdrawCombined_agree (h : Agree A m₁ m₂) {caller receiver : Party}
    (hc : caller.addr ∈ A) (hr : receiver.addr ∈ A) (runeid : RuneId) (runeAmount btcAmount : ℕ)
    (feePerVbytes : Option ℕ) :
    Outcome.Agree A
      (withdrawCombined sync probe fuel caller receiver runeid runeAmount btcAmount feePerVbytes m₁)
      (withdrawCombined sync probe fuel caller receiver runeid runeAmount btcAmount feePerVbytes
        m₂) :=
  have hn := hsync _ _ _ _ (hsync caller.addr u64Max _ _ h)
  afterTransfer_agree (CombinedTxn.transfer_agree fuel hn hc hr) hn fun _ _ _ _ => .panic hn

/-- A method from pools that agree at the addresses of the principals it names, and perhaps more,
ends the same way: the same result or message, with pools that agree there. -/
theorem EntryPoint.run_agree {e : EntryPoint} (hA : ∀ p ∈ e.parties, p.addr ∈ A)
    (h : Agree A m₁ m₂) :
    Outcome.Agree A (e.run sync probe fuel m₁) (e.run sync probe fuel m₂) := by
  cases e <;> simp only [EntryPoint.parties, List.mem_cons, List.mem_singleton, List.not_mem_nil,
    or_false, forall_eq_or_imp, forall_eq] at hA
  case bitcoin => exact withdrawBitcoin_agree hsync h hA _ _ _
  case fromMultipleAddresses =>
    exact withdrawBitcoinFromMultipleAddresses_agree hsync h hA.1 hA.2 _ _ _
  case runestone => exact withdrawRunestone_agree hsync h hA _ _ _ _ _
  case feePaidByReceiver =>
    exact withdrawRunestoneWithFeePaidByReceiver_agree hsync h hA.1 hA.2 _ _ _
  case combined => exact withdrawCombined_agree hsync h hA.1 hA.2 _ _ _ _

end Methods

end OrdWallet
