import OrdWallet.Concurrency

/-!
# No outpoint is spent twice

A transaction that lists an input twice is invalid. A builder hands out UTXOs from the fronts of
its pools, a pool holds each outpoint once, and under the event model's invariant no two pools
share one; so the inputs of a result are distinct, also when
`withdraw_bitcoin_from_multiple_addresses` names its caller as `principal0`. With
`interleaved_calls_keep_inv`, no outpoint is an input twice among all built transactions.
-/

namespace OrdWallet

/-- The outpoints a pool hands out, given the UTXOs handed out by each plain and runic pool. -/
def drawnAt (plain : String → List Utxo) (runic : String → RuneId → List RunicUtxo) :
    PoolId → List OutPoint
  | .plain a => (plain a).map (·.outpoint)
  | .runic a r => (runic a r).map (·.utxo.outpoint)

namespace Takes

variable {m m' : UtxoManager} {plain : String → List Utxo}
  {runic : String → RuneId → List RunicUtxo}

/-- A pool hands out the outpoints at its front. -/
theorem drawnAt_append (h : Takes m m' plain runic) (p : PoolId) :
    drawnAt plain runic p ++ m'.outpoints p = m.outpoints p := by
  cases p with
  | plain a =>
    rw [drawnAt, UtxoManager.outpoints, UtxoManager.outpoints, ← List.map_append, h.1 a]
  | runic a r =>
    rw [drawnAt, UtxoManager.outpoints, UtxoManager.outpoints, ← List.map_append, h.2 a r]

theorem nodup_drawnAt (h : Takes m m' plain runic) (p : PoolId) :
    (drawnAt plain runic p).Nodup := by
  have hn := m.nodup_outpoints p
  rw [← h.drawnAt_append p] at hn
  exact hn.of_append_left

theorem mem_of_mem_drawnAt (h : Takes m m' plain runic) {p : PoolId} {o : OutPoint}
    (ho : o ∈ drawnAt plain runic p) : o ∈ m.outpoints p := by
  rw [← h.drawnAt_append p]
  exact List.mem_append_left _ ho

/-- What distinct pools hand out, when no two pools share an outpoint, holds no outpoint
twice. -/
theorem nodup_flatten_drawnAt (h : Takes m m' plain runic)
    (huniq : ∀ p q o, o ∈ m.outpoints p → o ∈ m.outpoints q → p = q) {ps : List PoolId}
    (hps : ps.Nodup) : (ps.map (drawnAt plain runic)).flatten.Nodup := by
  refine List.nodup_flatten.mpr ⟨?_, List.pairwise_map.mpr (hps.imp fun hpq o h₁ h₂ => ?_)⟩
  · simp only [List.mem_map]
    rintro _ ⟨p, -, rfl⟩
    exact h.nodup_drawnAt p
  · exact hpq (huniq _ _ o (h.mem_of_mem_drawnAt h₁) (h.mem_of_mem_drawnAt h₂))

end Takes

namespace TransactionType

/-- The pools a result draws its inputs from, each once, in the order of its inputs. -/
def pools : TransactionType → List PoolId
  | bitcoin addr .. => [.plain addr]
  | legoBitcoin addr0 addr1 .. =>
    if addr0 = addr1 then [.plain addr0] else [.plain addr0, .plain addr1]
  | runestone senderAddr receiverAddr _ _ runeid _ _ _ _ paidBySender _ _ _ =>
    [.runic senderAddr runeid, .plain (if paidBySender then senderAddr else receiverAddr)]
  | combined senderAddr receiverAddr _ _ _ _ _ _ _ runeid _ _ _ _ _ =>
    if senderAddr = receiverAddr then [.runic senderAddr runeid, .plain senderAddr]
    else [.runic senderAddr runeid, .plain senderAddr, .plain receiverAddr]

theorem pools_nodup (tt : TransactionType) : tt.pools.Nodup := by
  cases tt with
  | legoBitcoin addr0 addr1 =>
    simp only [pools]
    split_ifs with h <;> simp [h]
  | combined senderAddr receiverAddr =>
    simp only [pools]
    split_ifs with h <;> simp [h]
  | _ => simp [pools]

/-- The inputs of a result are what its pools hand out, pool after pool. -/
theorem spent_eq_flatten (tt : TransactionType) :
    tt.spentUtxos.map (·.outpoint) =
      (tt.pools.map (drawnAt tt.plainDrawn tt.runicDrawn)).flatten := by
  cases tt with
  | bitcoin => simp [pools, drawnAt, plainDrawn, spentUtxos, plainAt]
  | legoBitcoin addr0 addr1 =>
    by_cases h : addr0 = addr1
    · subst h
      simp [pools, drawnAt, plainDrawn, spentUtxos, plainAt]
    · simp [pools, drawnAt, plainDrawn, spentUtxos, plainAt, h, Ne.symm h]
  | runestone => simp [pools, drawnAt, plainDrawn, runicDrawn, spentUtxos, plainAt, runicAt]
  | combined senderAddr receiverAddr =>
    by_cases h : senderAddr = receiverAddr
    · subst h
      simp [pools, drawnAt, plainDrawn, runicDrawn, spentUtxos, plainAt, runicAt]
    · simp [pools, drawnAt, plainDrawn, runicDrawn, spentUtxos, plainAt, runicAt, h, Ne.symm h]

end TransactionType

/-- A builder call that returns a transaction, from pools that share no outpoint, lists each
input once. -/
theorem Request.transfer_ok_nodup {req : Request} {fuel : ℕ} {m m' : UtxoManager}
    {tt : TransactionType} (huniq : ∀ p q o, o ∈ m.outpoints p → o ∈ m.outpoints q → p = q)
    (h : req.transfer fuel m = .returned (.ok tt) m') : (tt.spentUtxos.map (·.outpoint)).Nodup := by
  rw [tt.spent_eq_flatten]
  exact (Request.transfer_ok_takes h).nodup_flatten_drawnAt huniq tt.pools_nodup

/-- Every built transaction lists each input once. -/
def World.InputsDistinct (w : World) : Prop := ∀ t ∈ w.built, t.Nodup

namespace World.InputsDistinct

variable {w : World}

theorem step (hw : w.Inv) (hd : w.InputsDistinct) (e : Event) : (w.step e).InputsDistinct := by
  cases e with
  | transfer fuel req =>
    dsimp only [World.step]
    split
    · rename_i hr
      intro t ht
      rcases List.mem_append.mp ht with ht | ht
      · exact hd t ht
      · obtain rfl := List.mem_singleton.mp ht
        exact Request.transfer_ok_nodup hw.pool_unique hr
    all_goals exact hd
  | _ => exact hd

theorem run (hw : w.Inv) (hd : w.InputsDistinct) {es : List Event} (hes : w.Admissible es) :
    (w.run es).InputsDistinct := by
  induction es generalizing w with
  | nil => exact hd
  | cons e es ih => exact ih (hw.step hes.1) (hd.step hw e) hes.2

end World.InputsDistinct

/-- Along every interleaving of update calls at their awaits, from a world that keeps the event
model's invariant, with no call in flight and no outpoint spent twice, when every synchronization
records only outpoints that no built transaction spends and no other pool holds (which leaves out
a UTXO carrying two runes): no outpoint is spent twice, neither by two built transactions nor
twice by one. -/
theorem interleaved_calls_spend_once {w : World} (hw : w.Inv) (hd : w.built.flatten.Nodup)
    {as : List Action} (has : (Execution.mk w []).Admissible as) :
    ((Execution.mk w []).run as).world.built.flatten.Nodup := by
  obtain ⟨es, hes, hrun⟩ := (Execution.sound_nil.run has.allowedRun).1
  have hadm : w.Admissible es := World.admissible_iff_allowed.mpr hes
  rw [← hrun]
  exact List.nodup_flatten.mpr
    ⟨World.InputsDistinct.run hw (List.nodup_flatten.mp hd).1 hadm, (hw.run hadm).built_disjoint⟩

/-- The interleaving of `alice`'s and `bob`'s withdrawals spends each outpoint once. -/
theorem aliceBobInterleaving_spends_once :
    pairWorld.Inv ∧ pairWorld.built.flatten.Nodup ∧
      (Execution.mk pairWorld []).Admissible aliceBobInterleaving ∧
      ((Execution.mk pairWorld []).run aliceBobInterleaving).world.built.flatten.Nodup := by
  have has : (Execution.mk pairWorld []).Admissible aliceBobInterleaving :=
    ⟨trivial, trivial, trivial, trivial⟩
  have hd : pairWorld.built.flatten.Nodup := List.nodup_nil
  exact ⟨pairWorld_inv, hd, has, interleaved_calls_spend_once pairWorld_inv hd has⟩

end OrdWallet
