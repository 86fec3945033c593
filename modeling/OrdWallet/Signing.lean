import OrdWallet.Rebuild

/-!
# Who signs each input

`build_and_submit` signs input after input, choosing the address and the account from index
lists it fills while it adds the inputs: the runic inputs and the sender's BTC inputs first,
then the fee inputs, whose signer depends on who pays the fee. Here each input is matched with
the party whose pool its UTXO was drawn from, and the signer chosen for it is that party's key.
The entry points pass each party as a pool name, an address and an account derived from one key.
-/

namespace OrdWallet

/-- A party to a transfer as the entry points pass it: the pool it draws from, its address and
its account. -/
structure Party where
  addr : String
  address : Address
  account : Account

/-- The address and the account a party signs with. -/
def Party.key (p : Party) : Address × Account := (p.address, p.account)

namespace TransactionType

/-- The party whose pool each input was drawn from, input by input: the sender for the plain,
runic and sender BTC inputs, `addr0` and `addr1` for the two-sender inputs, and whoever the
builder drew the fee inputs from: the fee payer of a rune transfer, the receiver of a combined
one. -/
def owners : TransactionType → List Party
  | bitcoin addr utxos signerAccount signerAddress _ =>
    List.replicate utxos.length ⟨addr, signerAddress, signerAccount⟩
  | legoBitcoin addr0 addr1 account0 account1 address0 address1 utxos0 utxos1 _ _ _ _ _ =>
    List.replicate utxos0.length ⟨addr0, address0, account0⟩ ++
      List.replicate utxos1.length ⟨addr1, address1, account1⟩
  | runestone senderAddr receiverAddr senderAccount receiverAccount _ _ _ runicUtxos feeUtxos
      paidBySender senderAddress receiverAddress _ =>
    List.replicate runicUtxos.length ⟨senderAddr, senderAddress, senderAccount⟩ ++
      List.replicate feeUtxos.length
        (if paidBySender then ⟨senderAddr, senderAddress, senderAccount⟩
        else ⟨receiverAddr, receiverAddress, receiverAccount⟩)
  | combined senderAddr receiverAddr senderAddress receiverAddress senderAccount receiverAccount
      runicUtxos btcUtxos feeUtxos _ _ _ _ _ _ =>
    List.replicate (runicUtxos.length + btcUtxos.length) ⟨senderAddr, senderAddress, senderAccount⟩ ++
      List.replicate feeUtxos.length ⟨receiverAddr, receiverAddress, receiverAccount⟩

/-- The UTXO `u` of a result was drawn from a pool of `addr`: its plain pool, or its pool of
some rune. -/
def DrawnFrom (tt : TransactionType) (addr : String) (u : Utxo) : Prop :=
  u ∈ tt.plainDrawn addr ∨ ∃ r, u ∈ (tt.runicDrawn addr r).map (·.utxo)

end TransactionType

/-- A list whose entries all relate to `p` relates entry by entry to `p` repeated. -/
theorem forall₂_replicate {α β : Type} {R : α → β → Prop} {p : α} {l : List β} {n : ℕ}
    (hn : l.length = n) (h : ∀ u ∈ l, R p u) : List.Forall₂ R (List.replicate n p) l := by
  subst hn
  induction l with
  | nil => exact .nil
  | cons u l ih => exact .cons (h u (List.mem_cons_self u l)) (ih fun v hv => h v (List.mem_cons_of_mem u hv))

/-- A map over the indices that is `a` below `n₀` and `b` on the next `n₁` indices. -/
theorem map_range_eq_replicate_append {β : Type} {f : ℕ → β} {n₀ n₁ : ℕ} {a b : β}
    (h₀ : ∀ i < n₀, f i = a) (h₁ : ∀ i, n₀ ≤ i → i < n₀ + n₁ → f i = b) :
    (List.range (n₀ + n₁)).map f = List.replicate n₀ a ++ List.replicate n₁ b := by
  refine List.ext_getElem (by simp) fun i hi _ => ?_
  rw [List.length_map, List.length_range] at hi
  rw [List.getElem_map, List.getElem_range, List.getElem_append]
  split
  · rename_i hlt
    rw [List.getElem_replicate, h₀ i (by simpa using hlt)]
  · rename_i hge
    rw [List.getElem_replicate, h₁ i (by simpa using hge) hi]

namespace TransactionType

/-- Every input of a result was drawn from a pool of the party `owners` names for it. -/
theorem forall₂_drawnFrom (tt : TransactionType) :
    List.Forall₂ (fun p u => tt.DrawnFrom p.addr u) tt.owners tt.spentUtxos := by
  cases tt with
  | bitcoin addr utxos =>
    exact forall₂_replicate rfl fun u hu => .inl (by simpa [plainDrawn, plainAt] using hu)
  | legoBitcoin addr0 addr1 _ _ _ _ utxos0 utxos1 =>
    exact List.rel_append
      (forall₂_replicate rfl fun u hu => .inl (by simp [plainDrawn, plainAt, hu]))
      (forall₂_replicate rfl fun u hu => .inl (by simp [plainDrawn, plainAt, hu]))
  | runestone senderAddr receiverAddr _ _ runeid _ _ runicUtxos feeUtxos paidBySender =>
    refine List.rel_append (forall₂_replicate (List.length_map _ _) fun u hu =>
      .inr ⟨runeid, by simpa [runicDrawn, runicAt] using hu⟩)
      (forall₂_replicate rfl fun u hu => .inl ?_)
    cases paidBySender <;> simp [plainDrawn, plainAt, hu]
  | combined senderAddr receiverAddr _ _ _ _ runicUtxos btcUtxos feeUtxos runeid =>
    refine List.rel_append (forall₂_replicate (by simp) fun u hu => ?_)
      (forall₂_replicate rfl fun u hu => .inl (by simp [plainDrawn, plainAt, hu]))
    rcases List.mem_append.mp hu with hr | hb
    · exact .inr ⟨runeid, by simpa [runicDrawn, runicAt] using hr⟩
    · exact .inl (by simp [plainDrawn, plainAt, hb])

end TransactionType

section Builders

variable {req : Request} {fee : ℕ} {m m' : UtxoManager} {txn : Transaction} {tt : TransactionType}

/-- For the result of one iteration, the signer `build_and_submit` picks for each input is the
key of the party the input was drawn from. Only the combined shape needs the build: when the
sender pays, its fee closure draws no fee inputs, which the index lists would give the sender. -/
theorem Request.map_signer_of_build (h : req.build fee m = some (.ok (txn, tt), m')) :
    (List.range tt.spentUtxos.length).map tt.signer = tt.owners.map Party.key := by
  cases req with
  | bitcoin =>
    obtain ⟨utxos, -, rfl⟩ := Request.build_eq_ok h
    simp only [TransactionType.spentUtxos, TransactionType.owners, List.map_replicate]
    exact (List.map_const' _ _).trans (congrArg (List.replicate · _) (List.length_range _))
  | legoBitcoin arg =>
    obtain ⟨u0, u1, -, rfl⟩ := Request.build_eq_ok h
    rw [TransactionType.spentUtxos, List.length_append, TransactionType.owners, List.map_append,
      List.map_replicate, List.map_replicate]
    exact map_range_eq_replicate_append (fun i hi => if_pos (List.mem_range.mpr hi))
      fun i hi _ => if_neg (by simpa using hi)
  | runestone args =>
    obtain ⟨runicUtxos, feeUtxos, -, rfl⟩ := Request.build_eq_ok h
    rw [TransactionType.spentUtxos, List.length_append, List.length_map, TransactionType.owners,
      List.map_append, List.map_replicate, List.map_replicate]
    refine map_range_eq_replicate_append (fun i hi => if_pos (by simp [hi])) fun i hi hi' => ?_
    cases args.paidBySender <;> simp [TransactionType.signer, Party.key, hi, hi', Nat.not_lt.mpr hi]
  | combined req =>
    obtain ⟨runicUtxos, btcUtxos, feeUtxos, hb, rfl⟩ := Request.build_eq_ok h
    obtain ⟨m₁, m₂, required, btcTotal, feeTotal, -, -, -, hf, -⟩ :=
      CombinedTxn.buildTransactionWithFee_ok hb
    rw [TransactionType.spentUtxos, List.length_append, List.length_append, List.length_map,
      TransactionType.owners, List.map_append, List.map_replicate, List.map_replicate]
    refine map_range_eq_replicate_append (fun i hi => ?_) fun i hi hi' => ?_
    · simp [TransactionType.signer, Party.key, hi]
    · rcases CombinedTxn.selectFeeUtxos_ok hf with ⟨-, rfl, -, -⟩ | ⟨hpaid, -⟩
      · simp at hi'
        omega
      · simp [TransactionType.signer, Party.key, hpaid, hi, hi']

end Builders

/-- For every builder call that returns a result, `build_and_submit` signs input `i` of the
transaction it reassembles with the key of the party whose pool the input's UTXO was drawn
from: the inputs spend the result's UTXOs in order, the pools handed exactly those out, each
was drawn from a pool of the party `owners` names for it, and the signer of each index is that
party's address and account. -/
theorem transfer_signs_with_owner {fuel : ℕ} {req : Request} {m m' : UtxoManager}
    {tt : TransactionType} (h : req.transfer fuel m = .returned (.ok tt) m') :
    (∃ txn, tt.unsignedTxn = some txn ∧ txn.input = tt.spentUtxos.map unsignedInput) ∧
      Takes m m' tt.plainDrawn tt.runicDrawn ∧
      List.Forall₂ (fun p u => tt.DrawnFrom p.addr u) tt.owners tt.spentUtxos ∧
      (List.range tt.spentUtxos.length).map tt.signer = tt.owners.map Party.key := by
  obtain ⟨fee, txn, hb, hfee⟩ := Request.transfer_ok h
  exact ⟨⟨txn, Request.unsignedTxn_of_build (hfee ▸ recomputedFee_lt txn req.feePerVbytes) hb,
    Request.input_of_build hb⟩, Request.transfer_ok_takes h, tt.forall₂_drawnFrom,
    Request.map_signer_of_build hb⟩

set_option maxRecDepth 4000 in
theorem pairTransfer_signs_with_owner :
    ∃ tt m', pairRequest.transfer 3 pairPools = .returned (.ok tt) m' ∧
      (∃ txn, tt.unsignedTxn = some txn ∧ txn.input = tt.spentUtxos.map unsignedInput) ∧
      Takes pairPools m' tt.plainDrawn tt.runicDrawn ∧
      List.Forall₂ (fun p u => tt.DrawnFrom p.addr u) tt.owners tt.spentUtxos ∧
      (List.range tt.spentUtxos.length).map tt.signer = tt.owners.map Party.key := by
  obtain ⟨tt, hok⟩ := Option.isSome_iff_exists.mp
    (by decide : (pairRequest.transfer 3 pairPools).ok?.isSome = true)
  obtain ⟨m', h⟩ := LoopEnd.ok?_eq_some.mp hok
  exact ⟨tt, m', h, transfer_signs_with_owner h⟩

end OrdWallet
