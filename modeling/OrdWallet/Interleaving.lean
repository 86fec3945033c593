import OrdWallet.Signing

/-!
# Interleaved withdrawals

A `World` is the manager with the inputs of every transaction built so far, and an `Event` is a
segment of an entry point between awaits that changes it: a builder call, or a synchronization
(`updater::fetch_utxos_and_update_balances`, not among the sources, modelled as recording the
UTXOs the chain reports for an address, skipping outpoints already in the pool). When every
synchronization records only outpoints that no built transaction spends and no other pool holds,
which excludes a UTXO carrying two runes, no later build draws an input already built.
-/

namespace OrdWallet

/-- A pool of the manager: the plain pool of an address, or its pool of one rune. -/
inductive PoolId
  | plain (addr : String)
  | runic (addr : String) (runeid : RuneId)
  deriving DecidableEq

/-- A key of a recorded pool comes from the pool or from the recorded entries. -/
theorem mem_map_recordInto {α : Type} {key : α → OutPoint} {pool new : List α} {o : OutPoint}
    (h : o ∈ (recordInto key pool new).map key) : o ∈ pool.map key ∨ o ∈ new.map key := by
  obtain ⟨u, hu, rfl⟩ := List.mem_map.mp h
  exact (recordInto_mem hu).imp (List.mem_map_of_mem key) (List.mem_map_of_mem key)

/-- An entry of the right list of a `Forall₂` relates to some entry of the left one. -/
theorem exists_of_forall₂ {α β : Type} {R : α → β → Prop} {l₁ : List α} {l₂ : List β}
    (h : List.Forall₂ R l₁ l₂) {b : β} (hb : b ∈ l₂) : ∃ a, R a b := by
  induction h with
  | nil => cases hb
  | cons hr _ ih => exact (List.mem_cons.mp hb).elim (fun h => h ▸ ⟨_, hr⟩) ih

namespace UtxoManager

/-- The outpoints a pool holds, front first. -/
def outpoints (m : UtxoManager) : PoolId → List OutPoint
  | .plain addr => (m.bitcoin addr).map (·.outpoint)
  | .runic addr runeid => (m.runic addr runeid).map (·.utxo.outpoint)

/-- A pool holds each outpoint once. -/
theorem nodup_outpoints (m : UtxoManager) : ∀ p, (m.outpoints p).Nodup
  | .plain addr => nodup_keys_of_sorted (m.bitcoin_sorted addr)
  | .runic addr runeid => nodup_keys_of_sorted (m.runic_sorted addr runeid)

@[simp] theorem outpoints_empty (p : PoolId) : UtxoManager.empty.outpoints p = [] := by
  cases p <;> rfl

variable {m : UtxoManager} {addr : String} {runeid : RuneId} {p : PoolId} {o : OutPoint}

/-- Recording plain UTXOs of `addr` adds only their outpoints, and only to that pool. -/
theorem mem_outpoints_recordBtcUtxos {utxos : List Utxo}
    (h : o ∈ (m.recordBtcUtxos addr utxos).outpoints p) :
    o ∈ m.outpoints p ∨ (p = .plain addr ∧ o ∈ utxos.map (·.outpoint)) := by
  cases p with
  | plain a =>
    simp only [outpoints, bitcoin_recordBtcUtxos] at h
    split at h
    · rename_i ha
      subst ha
      exact (mem_map_recordInto h).imp id fun hn => ⟨rfl, hn⟩
    · exact .inl h
  | runic a r => exact .inl h

/-- Recording runic UTXOs of `addr` and `runeid` adds only their outpoints, and only to that
pool. -/
theorem mem_outpoints_recordRunicUtxos {utxos : List RunicUtxo}
    (h : o ∈ (m.recordRunicUtxos addr runeid utxos).outpoints p) :
    o ∈ m.outpoints p ∨ (p = .runic addr runeid ∧ o ∈ utxos.map (·.utxo.outpoint)) := by
  cases p with
  | plain a => exact .inl h
  | runic a r =>
    simp only [outpoints, runic_recordRunicUtxos] at h
    split at h
    · rename_i ha
      obtain ⟨rfl, rfl⟩ := ha
      exact (mem_map_recordInto h).imp id fun hn => ⟨rfl, hn⟩
    · exact .inl h

/-- Recording keeps every outpoint of every pool. -/
theorem outpoints_recordBtcUtxos_of_mem {utxos : List Utxo} (h : o ∈ m.outpoints p) :
    o ∈ (m.recordBtcUtxos addr utxos).outpoints p := by
  cases p with
  | plain a =>
    simp only [outpoints, bitcoin_recordBtcUtxos]
    split
    · obtain ⟨u, hu, rfl⟩ := List.mem_map.mp h
      exact List.mem_map_of_mem _ (mem_recordInto_of_mem hu)
    · exact h
  | runic a r => exact h

theorem outpoints_recordRunicUtxos_of_mem {utxos : List RunicUtxo} (h : o ∈ m.outpoints p) :
    o ∈ (m.recordRunicUtxos addr runeid utxos).outpoints p := by
  cases p with
  | plain a => exact h
  | runic a r =>
    simp only [outpoints, runic_recordRunicUtxos]
    split
    · obtain ⟨u, hu, rfl⟩ := List.mem_map.mp h
      exact List.mem_map_of_mem (·.utxo.outpoint) (mem_recordInto_of_mem hu)
    · exact h

end UtxoManager

namespace Takes

variable {m m' : UtxoManager} {plain : String → List Utxo}
  {runic : String → RuneId → List RunicUtxo}

/-- Handing out only removes outpoints from the pools. -/
theorem mem_outpoints (h : Takes m m' plain runic) {p : PoolId} {o : OutPoint}
    (ho : o ∈ m'.outpoints p) : o ∈ m.outpoints p := by
  cases p with
  | plain a =>
    rw [UtxoManager.outpoints, ← h.1 a, List.map_append]
    exact List.mem_append_right _ ho
  | runic a r =>
    rw [UtxoManager.outpoints, ← h.2 a r, List.map_append]
    exact List.mem_append_right _ ho

/-- A UTXO handed out by a pool of `a` was in that pool and is in it no longer. -/
theorem handed_out (h : Takes m m' plain runic) {a : String} {u : Utxo}
    (hu : u ∈ plain a ∨ ∃ r, u ∈ (runic a r).map (·.utxo)) :
    ∃ p, u.outpoint ∈ m.outpoints p ∧ u.outpoint ∉ m'.outpoints p := by
  rcases hu with hu | ⟨r, hu⟩
  · have hn : ((plain a ++ m'.bitcoin a).map (·.outpoint)).Nodup := by
      rw [h.1 a]
      exact m.nodup_outpoints (.plain a)
    rw [List.map_append] at hn
    have hin := List.mem_map_of_mem Utxo.outpoint hu
    refine ⟨.plain a, ?_, List.disjoint_of_nodup_append hn hin⟩
    rw [UtxoManager.outpoints, ← h.1 a, List.map_append]
    exact List.mem_append_left _ hin
  · obtain ⟨v, hv, rfl⟩ := List.mem_map.mp hu
    have hn : ((runic a r ++ m'.runic a r).map (·.utxo.outpoint)).Nodup := by
      rw [h.2 a r]
      exact m.nodup_outpoints (.runic a r)
    rw [List.map_append] at hn
    have hin := List.mem_map_of_mem (·.utxo.outpoint) hv
    refine ⟨.runic a r, ?_, List.disjoint_of_nodup_append hn hin⟩
    rw [UtxoManager.outpoints, ← h.2 a r, List.map_append]
    exact List.mem_append_left _ hin

/-- An outpoint a pool held is still there, or is the outpoint of a UTXO handed out. -/
theorem mem_outpoints_or_handed_out (h : Takes m m' plain runic) {p : PoolId} {o : OutPoint}
    (ho : o ∈ m.outpoints p) :
    o ∈ m'.outpoints p ∨
      ∃ a u, (u ∈ plain a ∨ ∃ r, u ∈ (runic a r).map (·.utxo)) ∧ u.outpoint = o := by
  cases p with
  | plain a =>
    rw [UtxoManager.outpoints, ← h.1 a, List.map_append, List.mem_append] at ho
    refine ho.symm.imp id fun ho => ?_
    obtain ⟨u, hu, rfl⟩ := List.mem_map.mp ho
    exact ⟨a, u, .inl hu, rfl⟩
  | runic a r =>
    rw [UtxoManager.outpoints, ← h.2 a r, List.map_append, List.mem_append] at ho
    refine ho.symm.imp id fun ho => ?_
    obtain ⟨v, hv, rfl⟩ := List.mem_map.mp ho
    exact ⟨a, v.utxo, .inr ⟨r, List.mem_map_of_mem _ hv⟩, rfl⟩

end Takes

/-- The canister between await points: the manager, and the inputs of every transaction built
so far, oldest first. -/
structure World where
  manager : UtxoManager
  built : List (List OutPoint)

/-- A segment of an entry point that changes the world. -/
inductive Event
  /-- The synchronizer records the plain UTXOs the chain reports for `addr`. -/
  | syncBitcoin (addr : String) (utxos : List Utxo)
  /-- The synchronizer records the UTXOs carrying `runeid` the chain reports for `addr`. -/
  | syncRunic (addr : String) (runeid : RuneId) (utxos : List RunicUtxo)
  /-- A builder call of at most `fuel` fee-loop iterations. -/
  | transfer (fuel : ℕ) (req : Request)

namespace World

/-- The world of a fresh canister. -/
def init : World := ⟨UtxoManager.empty, []⟩

/-- One segment. A builder call that returns a transaction keeps it for `build_and_submit`, so
its inputs are built; one that fails keeps the pools it leaves, as the entry point awaits a
synchronization next; one that traps, or never returns, rolls back. -/
def step (w : World) : Event → World
  | .syncBitcoin addr utxos => ⟨w.manager.recordBtcUtxos addr utxos, w.built⟩
  | .syncRunic addr runeid utxos => ⟨w.manager.recordRunicUtxos addr runeid utxos, w.built⟩
  | .transfer fuel req =>
    match req.transfer fuel w.manager with
    | .returned (.ok tt) m => ⟨m, w.built ++ [tt.spentUtxos.map (·.outpoint)]⟩
    | .returned (.error _) m => ⟨m, w.built⟩
    | .trapped => w
    | .outOfFuel => w

/-- An interleaving of segments, applied in order. -/
def run (w : World) (es : List Event) : World := es.foldl step w

/-- What every world reached by a run that synchronizes only fresh outpoints keeps. -/
structure Inv (w : World) : Prop where
  /-- No outpoint is an input of two built transactions. -/
  built_disjoint : w.built.Pairwise List.Disjoint
  /-- No pool holds an input of a built transaction. -/
  pool_not_built : ∀ p o, o ∈ w.manager.outpoints p → o ∉ w.built.flatten
  /-- An outpoint sits in one pool at most. -/
  pool_unique : ∀ p q o, o ∈ w.manager.outpoints p → o ∈ w.manager.outpoints q → p = q

/-- A synchronization is fresh when it records only outpoints that no built transaction spends
and that no other pool holds. -/
def Fresh (w : World) : Event → Prop
  | .syncBitcoin addr utxos => ∀ u ∈ utxos, u.outpoint ∉ w.built.flatten ∧
      ∀ p, u.outpoint ∈ w.manager.outpoints p → p = .plain addr
  | .syncRunic addr runeid utxos => ∀ u ∈ utxos, u.utxo.outpoint ∉ w.built.flatten ∧
      ∀ p, u.utxo.outpoint ∈ w.manager.outpoints p → p = .runic addr runeid
  | .transfer _ _ => True

/-- Every synchronization of the run is fresh in the world it lands in. -/
def Admissible : World → List Event → Prop
  | _, [] => True
  | w, e :: es => w.Fresh e ∧ (w.step e).Admissible es

theorem init_inv : init.Inv where
  built_disjoint := List.Pairwise.nil
  pool_not_built _ _ h := by simp [init] at h
  pool_unique _ _ _ h := by simp [init] at h

namespace Inv

variable {w : World}

/-- Recording outpoints into one pool `p₀` that are fresh keeps the invariant. -/
theorem record {m : UtxoManager} {p₀ : PoolId} {new : List OutPoint} (hw : w.Inv)
    (hm : ∀ p o, o ∈ m.outpoints p → o ∈ w.manager.outpoints p ∨ (p = p₀ ∧ o ∈ new))
    (hf : ∀ o ∈ new, o ∉ w.built.flatten ∧ ∀ p, o ∈ w.manager.outpoints p → p = p₀) :
    (World.mk m w.built).Inv where
  built_disjoint := hw.built_disjoint
  pool_not_built p o ho := (hm p o ho).elim (hw.pool_not_built p o) fun h => (hf o h.2).1
  pool_unique p q o hp hq := by
    rcases hm p o hp with hp | ⟨rfl, hn⟩ <;> rcases hm q o hq with hq | ⟨rfl, hn'⟩
    · exact hw.pool_unique p q o hp hq
    · exact (hf o hn').2 p hp
    · exact ((hf o hn).2 q hq).symm
    · rfl

/-- Handing UTXOs out without building keeps the invariant. -/
theorem takes {m' : UtxoManager} {plain : String → List Utxo}
    {runic : String → RuneId → List RunicUtxo} (hw : w.Inv) (ht : Takes w.manager m' plain runic) :
    (World.mk m' w.built).Inv where
  built_disjoint := hw.built_disjoint
  pool_not_built p o ho := hw.pool_not_built p o (ht.mem_outpoints ho)
  pool_unique p q o hp hq := hw.pool_unique p q o (ht.mem_outpoints hp) (ht.mem_outpoints hq)

/-- Building a transaction from the UTXOs handed out keeps the invariant: its inputs come out
of the pools, so no earlier transaction spends them and no pool holds them after. -/
theorem build {m' : UtxoManager} {tt : TransactionType} (hw : w.Inv)
    (ht : Takes w.manager m' tt.plainDrawn tt.runicDrawn) :
    (World.mk m' (w.built ++ [tt.spentUtxos.map (·.outpoint)])).Inv := by
  have hspent : ∀ o ∈ tt.spentUtxos.map (·.outpoint),
      ∃ p, o ∈ w.manager.outpoints p ∧ o ∉ m'.outpoints p := by
    intro o ho
    obtain ⟨u, hu, rfl⟩ := List.mem_map.mp ho
    obtain ⟨party, hd⟩ := exists_of_forall₂ tt.forall₂_drawnFrom hu
    exact ht.handed_out hd
  refine ⟨List.pairwise_append.mpr ⟨hw.built_disjoint, List.pairwise_singleton _ _, ?_⟩,
    fun p o ho hb => ?_, fun p q o hp hq => hw.pool_unique p q o (ht.mem_outpoints hp)
      (ht.mem_outpoints hq)⟩
  · intro t ht' s hs o hot hos
    obtain ⟨p, hp, -⟩ := hspent o (List.mem_singleton.mp hs ▸ hos)
    exact hw.pool_not_built p o hp (List.mem_flatten.mpr ⟨t, ht', hot⟩)
  · rw [List.flatten_append, List.mem_append] at hb
    rcases hb with hb | hb
    · exact hw.pool_not_built p o (ht.mem_outpoints ho) hb
    · obtain ⟨q, hq, hq'⟩ := hspent o (by simpa using hb)
      exact hq' (hw.pool_unique p q o (ht.mem_outpoints ho) hq ▸ ho)

/-- Every segment keeps the invariant, a synchronization when it is fresh. -/
theorem step (hw : w.Inv) {e : Event} (he : w.Fresh e) : (w.step e).Inv := by
  cases e with
  | syncBitcoin addr utxos =>
    refine hw.record (fun p o ho => UtxoManager.mem_outpoints_recordBtcUtxos ho) fun o ho => ?_
    obtain ⟨u, hu, rfl⟩ := List.mem_map.mp ho
    exact he u hu
  | syncRunic addr runeid utxos =>
    refine hw.record (fun p o ho => UtxoManager.mem_outpoints_recordRunicUtxos ho) fun o ho => ?_
    obtain ⟨u, hu, rfl⟩ := List.mem_map.mp ho
    exact he u hu
  | transfer fuel req =>
    dsimp only [World.step]
    split
    · rename_i tt m' h
      exact hw.build (Request.transfer_ok_takes h)
    · rename_i s m' h
      obtain ⟨plain, runic, ht⟩ := Request.transfer_error_takes h
      exact hw.takes ht
    · exact hw
    · exact hw

/-- Every admissible run keeps the invariant. -/
theorem run (hw : w.Inv) {es : List Event} (hes : w.Admissible es) : (w.run es).Inv := by
  induction es generalizing w with
  | nil => exact hw
  | cons e es ih => exact ih (hw.step hes.1) hes.2

end Inv

end World

/-- From a fresh canister, along any interleaving of builder calls and synchronizations that
record only outpoints no built transaction spends and no other pool holds, no outpoint is an
input of two built transactions, and no pool holds an input of a built transaction, so no later
build draws it. The condition leaves out a UTXO that carries two runes: the synchronizer records
it in the pool of each. -/
theorem admissible_run_no_double_spend {es : List Event} (hes : World.init.Admissible es) :
    (World.init.run es).built.Pairwise List.Disjoint ∧
      ∀ p o, o ∈ (World.init.run es).manager.outpoints p → o ∉ (World.init.run es).built.flatten :=
  let hinv := World.init_inv.run hes
  ⟨hinv.built_disjoint, hinv.pool_not_built⟩

/-- The UTXO the chain reports for `alice`. -/
def aliceUtxo : Utxo := ⟨⟨1, 0⟩, 50000⟩

/-- `withdraw_bitcoin` of 10 000 sats from `alice`. -/
def aliceSend : Request :=
  .bitcoin "alice" ⟨[1], none⟩ (Address.p2pkh (List.replicate 20 1))
    (Address.p2pkh (List.replicate 20 3)) 10000 true 1000

set_option maxRecDepth 4000 in
theorem aliceSends_admissible :
    World.init.Admissible [.syncBitcoin "alice" [aliceUtxo], .transfer 3 aliceSend] ∧
      (World.init.run [.syncBitcoin "alice" [aliceUtxo], .transfer 3 aliceSend]).built.Pairwise
        List.Disjoint ∧
      ∀ p o, o ∈ (World.init.run [.syncBitcoin "alice" [aliceUtxo], .transfer 3 aliceSend]).manager.outpoints p →
        o ∉ (World.init.run [.syncBitcoin "alice" [aliceUtxo], .transfer 3 aliceSend]).built.flatten := by
  have hes : World.init.Admissible [.syncBitcoin "alice" [aliceUtxo], .transfer 3 aliceSend] :=
    ⟨fun u hu => by simp [List.mem_singleton.mp hu, World.init], trivial, trivial⟩
  exact ⟨hes, admissible_run_no_double_spend hes⟩

/-- A rune withdrawal of `alice`'s `amount` of `runeid` to `bob`, the fee paid by `alice`. -/
def aliceRuneSend (runeid : RuneId) (amount : ℕ) : Request :=
  .runestone ⟨runeid, amount, "alice", "bob", ⟨[1], none⟩, ⟨[1], none⟩,
    Address.p2pkh (List.replicate 20 1), Address.p2pkh (List.replicate 20 2), 1000, true, none⟩

set_option maxRecDepth 4000 in
/-- Two ways a synchronization that is not fresh lets two builds spend one outpoint.

Two withdrawals from `alice`: the first builds on the UTXO the synchronizer recorded, then awaits
its signatures; the second finds the balance empty and synchronizes `alice` meanwhile. The chain
still reports the UTXO unspent, the pool no longer holds it, so it is recorded again and the
second build draws it too: both transactions spend `1:0`.

A UTXO carrying two runes, recorded once per rune: two withdrawals one after the other, one of
each rune, both spend `9:0`. -/
theorem unfreshSyncs_share_input :
    (World.init.run [.syncBitcoin "alice" [aliceUtxo], .transfer 3 aliceSend,
      .syncBitcoin "alice" [aliceUtxo], .transfer 3 aliceSend]).built = [[⟨1, 0⟩], [⟨1, 0⟩]] ∧
    (World.init.run [.syncRunic "alice" ⟨840000, 1⟩ [⟨⟨⟨9, 0⟩, 546⟩, 5⟩],
      .syncRunic "alice" ⟨840000, 2⟩ [⟨⟨⟨9, 0⟩, 546⟩, 7⟩],
      .syncBitcoin "alice" [⟨⟨3, 2⟩, 100000⟩, ⟨⟨3, 3⟩, 100000⟩],
      .transfer 3 (aliceRuneSend ⟨840000, 1⟩ 5), .transfer 3 (aliceRuneSend ⟨840000, 2⟩ 7)]).built =
      [[⟨9, 0⟩, ⟨3, 2⟩], [⟨9, 0⟩, ⟨3, 3⟩]] :=
  ⟨by decide, by decide⟩

end OrdWallet
