import Wdb2ts.DbConnectionPool

/-!
# The accounting of the connection pool

The invariant ties the list of the pool to the connections that are held, handed out and
deleted.  Each elementary change of the pool keeps it, and the operations are made of these
changes.
-/

namespace Wdb2ts

namespace miutil.pgpool

/-- The accounts of a pool whose clients hold some connections, and which has handed out
connections before. -/
structure Accounted (pool : DbConnectionPool) (held : List (ℕ × ℕ)) (handedOut : List ℕ) :
    Prop where
  size : pool.pool.length ≤ pool.maxpoolsize
  distinct : (pool.pool.map DbConnectionHelper.connection).Nodup
  heldOnce : (held.map Prod.snd).Nodup
  heldInUse : ∀ connection, connection ∈ held.map Prod.snd ↔
    ∃ con ∈ pool.pool, con.connection = connection ∧ con.inuse = true
  uses : ∀ con ∈ pool.pool,
    con.useCount + handedOut.count con.connection = pool.maxUseCount
  useful : 1 ≤ pool.maxUseCount → ∀ con ∈ pool.pool,
    0 ≤ con.useCount ∧ (con.inuse = false → con.useCount ≠ 0)
  atMost : 1 ≤ pool.maxUseCount → ∀ connection,
    (handedOut.count connection : ℤ) ≤ pool.maxUseCount
  inPool : ∀ con ∈ pool.pool, con.connection < pool.created
  known : ∀ connection ∈ handedOut, connection < pool.created
  gone : ∀ connection ∈ pool.deleted ++ pool.leaked, connection < pool.created ∧
    ∀ con ∈ pool.pool, con.connection ≠ connection
  inUseWhenDisabled : pool.isEnabled = false → ∀ con ∈ pool.pool, con.inuse = true

variable {pool : DbConnectionPool} {held : List (ℕ × ℕ)} {handedOut : List ℕ}

/-! ## The elementary changes -/

/-- A new connection is idle, and has not been handed out. -/
theorem Accounted.grow (accounted : Accounted pool held handedOut)
    (less : pool.pool.length < pool.maxpoolsize) (isEnabled : pool.isEnabled = true) :
    Accounted
      { pool with
        pool := pool.pool ++ [⟨pool.created, pool.maxUseCount, false⟩]
        created := pool.created + 1 }
      held handedOut := by
  have notOut : handedOut.count pool.created = 0 := by
    rw [List.count_eq_zero]
    intro member
    exact lt_irrefl _ (accounted.known _ member)
  refine
    { size := by simpa using less
      distinct := ?_
      heldOnce := accounted.heldOnce
      heldInUse := ?_
      uses := ?_
      useful := ?_
      atMost := accounted.atMost
      inPool := ?_
      known := fun connection member => Nat.lt_succ_of_lt (accounted.known connection member)
      gone := ?_
      inUseWhenDisabled := fun isDisabled => Bool.noConfusion (isEnabled.symm.trans isDisabled) }
  · simp only [List.map_append, List.map_cons, List.map_nil]
    refine List.Nodup.append accounted.distinct (List.nodup_singleton _) ?_
    intro connection inPool isNew
    rw [List.mem_singleton] at isNew
    obtain ⟨con, member, same⟩ := List.mem_map.mp inPool
    have less := accounted.inPool con member
    rw [same, isNew] at less
    exact lt_irrefl _ less
  · intro connection
    rw [accounted.heldInUse connection]
    simp
  · intro con member
    rcases List.mem_append.mp member with isOld | isNew
    · exact accounted.uses con isOld
    · rw [List.mem_singleton] at isNew
      subst isNew
      simp [notOut]
  · intro positive con member
    rcases List.mem_append.mp member with isOld | isNew
    · exact accounted.useful positive con isOld
    · rw [List.mem_singleton] at isNew
      subst isNew
      simp only at positive ⊢
      exact ⟨by omega, fun _ => by omega⟩
  · intro con member
    rcases List.mem_append.mp member with isOld | isNew
    · exact Nat.lt_succ_of_lt (accounted.inPool con isOld)
    · rw [List.mem_singleton] at isNew
      subst isNew
      exact Nat.lt_succ_self _
  · intro connection member
    obtain ⟨less, different⟩ := accounted.gone connection member
    refine ⟨Nat.lt_succ_of_lt less, fun con inPool => ?_⟩
    rcases List.mem_append.mp inPool with isOld | isNew
    · exact different con isOld
    · rw [List.mem_singleton] at isNew
      subst isNew
      exact less.ne'

/-- A connection that is leaked is no connection of the pool. -/
theorem Accounted.leak (accounted : Accounted pool held handedOut) :
    Accounted
      { pool with created := pool.created + 1, leaked := pool.leaked ++ [pool.created] }
      held handedOut where
  size := accounted.size
  distinct := accounted.distinct
  heldOnce := accounted.heldOnce
  heldInUse := accounted.heldInUse
  uses := accounted.uses
  useful := accounted.useful
  atMost := accounted.atMost
  inPool con member := Nat.lt_succ_of_lt (accounted.inPool con member)
  known connection member := Nat.lt_succ_of_lt (accounted.known connection member)
  gone connection member := by
    rw [← List.append_assoc] at member
    rcases List.mem_append.mp member with isOld | isNew
    · obtain ⟨less, different⟩ := accounted.gone connection isOld
      exact ⟨Nat.lt_succ_of_lt less, different⟩
    · rw [List.mem_singleton] at isNew
      subst isNew
      exact ⟨Nat.lt_succ_self _, fun con inPool => (accounted.inPool con inPool).ne⟩
  inUseWhenDisabled := accounted.inUseWhenDisabled

/-- The connections of the pool behind a change of the flag of one of them. -/
theorem mem_inUse {connection : ℕ} {f : Bool} {con : DbConnectionHelper} :
    con ∈ (pool.inUse connection f).pool ↔
      ∃ old ∈ pool.pool, con = if old.connection = connection then old.inUse f else old := by
  simp only [DbConnectionPool.inUse, List.mem_map, eq_comm]

theorem connection_inUse (connection : ℕ) (f : Bool) (old : DbConnectionHelper) :
    (if old.connection = connection then old.inUse f else old).connection = old.connection := by
  split <;> rfl

theorem connections_inUse (connection : ℕ) (f : Bool) :
    (pool.inUse connection f).pool.map DbConnectionHelper.connection =
      pool.pool.map DbConnectionHelper.connection := by
  simp only [DbConnectionPool.inUse, List.map_map]
  refine List.map_congr_left fun old _ => ?_
  exact connection_inUse connection f old

/-- The connections of the pool are told apart by their numbers. -/
theorem Accounted.unique (accounted : Accounted pool held handedOut)
    {con other : DbConnectionHelper} (member : con ∈ pool.pool) (otherMember : other ∈ pool.pool)
    (same : con.connection = other.connection) : con = other :=
  List.inj_on_of_nodup_map accounted.distinct member otherMember same

/-- An idle connection is held by no client. -/
theorem Accounted.not_held (accounted : Accounted pool held handedOut) {con : DbConnectionHelper}
    (member : con ∈ pool.pool) (isIdle : con.inuse = false) :
    con.connection ∉ held.map Prod.snd := by
  intro isHeld
  obtain ⟨other, otherMember, same, isInUse⟩ := (accounted.heldInUse _).mp isHeld
  rw [accounted.unique otherMember member same, isIdle] at isInUse
  cases isInUse

/-- The connections in use when one of the pool is handed out. -/
theorem inUse_handOut_iff {con : DbConnectionHelper} (member : con ∈ pool.pool) (connection : ℕ) :
    (∃ changed ∈ (pool.inUse con.connection true).pool,
        changed.connection = connection ∧ changed.inuse = true) ↔
      connection = con.connection ∨
        ∃ old ∈ pool.pool, old.connection = connection ∧ old.inuse = true := by
  simp only [mem_inUse]
  constructor
  · rintro ⟨_, ⟨old, isOld, rfl⟩, same, isInUse⟩
    rw [connection_inUse] at same
    split at isInUse
    · rename_i isOwn
      exact Or.inl (same.symm.trans isOwn)
    · exact Or.inr ⟨old, isOld, same, isInUse⟩
  · rintro (rfl | ⟨old, isOld, rfl, isInUse⟩)
    · exact ⟨_, ⟨con, member, rfl⟩, connection_inUse _ _ _, by rw [if_pos rfl]; rfl⟩
    · refine ⟨_, ⟨old, isOld, rfl⟩, connection_inUse _ _ _, ?_⟩
      split
      · rfl
      · exact isInUse

/-- A connection that is handed out is used once more. -/
theorem Accounted.uses_handOut (accounted : Accounted pool held handedOut) (connection : ℕ)
    {changed : DbConnectionHelper} (inChanged : changed ∈ (pool.inUse connection true).pool) :
    changed.useCount + (connection :: handedOut).count changed.connection =
      (pool.inUse connection true).maxUseCount := by
  obtain ⟨old, isOld, rfl⟩ := mem_inUse.mp inChanged
  have uses := accounted.uses old isOld
  simp only [connection_inUse, List.count_cons, beq_iff_eq]
  split
  · rename_i isOwn
    rw [if_pos isOwn.symm]
    simp only [DbConnectionHelper.inUse, DbConnectionPool.inUse, if_true]
    push_cast
    omega
  · rename_i isOther
    rw [if_neg (Ne.symm isOther), Nat.add_zero]
    exact uses

/-- No connection is used more often than the pool allows. -/
theorem Accounted.atMost_handOut (accounted : Accounted pool held handedOut)
    {con : DbConnectionHelper} (member : con ∈ pool.pool) (isIdle : con.inuse = false)
    (positive : 1 ≤ pool.maxUseCount) (connection : ℕ) :
    ((con.connection :: handedOut).count connection : ℤ) ≤ pool.maxUseCount := by
  by_cases isOwn : con.connection = connection
  · subst isOwn
    have uses := accounted.uses con member
    obtain ⟨notNegative, notUsedUp⟩ := accounted.useful positive con member
    have remaining := notUsedUp isIdle
    rw [List.count_cons_self]
    push_cast
    omega
  · rw [List.count_cons_of_ne isOwn]
    exact accounted.atMost positive connection

/-- An idle connection is handed out. -/
theorem Accounted.handOut (accounted : Accounted pool held handedOut) (client : ℕ)
    {con : DbConnectionHelper} (member : con ∈ pool.pool) (isIdle : con.inuse = false)
    (isEnabled : pool.isEnabled = true) :
    Accounted (pool.inUse con.connection true) ((client, con.connection) :: held)
      (con.connection :: handedOut) := by
  refine
    { size := by simpa [DbConnectionPool.inUse] using accounted.size
      distinct := by rw [connections_inUse]; exact accounted.distinct
      heldOnce := List.nodup_cons.mpr ⟨accounted.not_held member isIdle, accounted.heldOnce⟩
      heldInUse := ?_
      uses := fun changed inChanged => accounted.uses_handOut con.connection inChanged
      useful := ?_
      atMost := fun positive => accounted.atMost_handOut member isIdle positive
      inPool := ?_
      known := ?_
      gone := ?_
      inUseWhenDisabled := fun isDisabled => Bool.noConfusion (isEnabled.symm.trans isDisabled) }
  · intro connection
    rw [inUse_handOut_iff member, List.map_cons, List.mem_cons, accounted.heldInUse connection]
  · intro positive changed inChanged
    obtain ⟨old, isOld, rfl⟩ := mem_inUse.mp inChanged
    obtain ⟨notNegative, notUsedUp⟩ := accounted.useful positive old isOld
    split
    · rename_i isOwn
      rw [accounted.unique isOld member isOwn] at notNegative notUsedUp ⊢
      have remaining := notUsedUp isIdle
      simp only [DbConnectionHelper.inUse, if_true]
      exact ⟨by omega, fun isFalse => Bool.noConfusion isFalse⟩
    · exact ⟨notNegative, notUsedUp⟩
  · intro changed inChanged
    obtain ⟨old, isOld, rfl⟩ := mem_inUse.mp inChanged
    rw [connection_inUse]
    exact accounted.inPool old isOld
  · intro connection isOut
    rcases List.mem_cons.mp isOut with rfl | before
    · exact accounted.inPool con member
    · exact accounted.known connection before
  · intro connection isGone
    obtain ⟨less, different⟩ := accounted.gone connection isGone
    refine ⟨less, fun changed inChanged => ?_⟩
    obtain ⟨old, isOld, rfl⟩ := mem_inUse.mp inChanged
    rw [connection_inUse]
    exact different old isOld

theorem mem_eraseP_iff {connections : List DbConnectionHelper}
    (distinct : (connections.map DbConnectionHelper.connection).Nodup) {connection : ℕ}
    {con : DbConnectionHelper} :
    con ∈ connections.eraseP (fun other => other.connection = connection) ↔
      con ∈ connections ∧ con.connection ≠ connection := by
  induction connections with
  | nil => simp
  | cons head rest ih =>
      obtain ⟨notInRest, restDistinct⟩ := List.nodup_cons.mp distinct
      by_cases isOwn : head.connection = connection
      · have others : ∀ con ∈ rest, con.connection ≠ connection := fun con member same =>
          notInRest (List.mem_map.mpr ⟨con, member, same.trans isOwn.symm⟩)
        rw [List.eraseP_cons_of_pos (by simpa using isOwn), List.mem_cons]
        constructor
        · intro member
          exact ⟨Or.inr member, others con member⟩
        · rintro ⟨rfl | member, different⟩
          · exact absurd isOwn different
          · exact member
      · rw [List.eraseP_cons_of_neg (by simpa using isOwn), List.mem_cons, List.mem_cons,
          ih restDistinct]
        constructor
        · rintro (rfl | ⟨member, different⟩)
          · exact ⟨Or.inl rfl, isOwn⟩
          · exact ⟨Or.inr member, different⟩
        · rintro ⟨rfl | member, different⟩
          · exact Or.inl rfl
          · exact Or.inr ⟨member, different⟩

/-- The connections that are held when a client gives one back. -/
theorem mem_held_erase (heldOnce : (held.map Prod.snd).Nodup) {client connection : ℕ}
    (isHeld : (client, connection) ∈ held) (other : ℕ) :
    other ∈ (held.erase (client, connection)).map Prod.snd ↔
      other ∈ held.map Prod.snd ∧ other ≠ connection := by
  simp only [List.mem_map, (List.Nodup.of_map _ heldOnce).mem_erase_iff]
  constructor
  · rintro ⟨holder, ⟨different, member⟩, rfl⟩
    refine ⟨⟨holder, member, rfl⟩, fun same => different ?_⟩
    exact List.inj_on_of_nodup_map heldOnce member isHeld same
  · rintro ⟨⟨holder, member, rfl⟩, different⟩
    exact ⟨holder, ⟨fun same => different (congrArg Prod.snd same), member⟩, rfl⟩

theorem nodup_held_erase (heldOnce : (held.map Prod.snd).Nodup) (holder : ℕ × ℕ) :
    ((held.erase holder).map Prod.snd).Nodup :=
  heldOnce.sublist (List.erase_sublist.map Prod.snd)

/-- A connection that is given back is deleted. -/
theorem Accounted.remove (accounted : Accounted pool held handedOut) {client connection : ℕ}
    (isHeld : (client, connection) ∈ held) :
    Accounted (pool.remove connection) (held.erase (client, connection)) handedOut := by
  have inPool {con : DbConnectionHelper} : con ∈ (pool.remove connection).pool ↔
      con ∈ pool.pool ∧ con.connection ≠ connection := mem_eraseP_iff accounted.distinct
  obtain ⟨own, ownMember, isOwn, _⟩ := (accounted.heldInUse connection).mp
    (List.mem_map_of_mem isHeld)
  refine
    { size := (List.length_eraseP_le).trans accounted.size
      distinct := accounted.distinct.sublist (List.eraseP_sublist.map _)
      heldOnce := nodup_held_erase accounted.heldOnce _
      heldInUse := ?_
      uses := fun con member => accounted.uses con (inPool.mp member).1
      useful := fun positive con member => accounted.useful positive con (inPool.mp member).1
      atMost := accounted.atMost
      inPool := fun con member => accounted.inPool con (inPool.mp member).1
      known := accounted.known
      gone := ?_
      inUseWhenDisabled := fun isDisabled con member =>
        accounted.inUseWhenDisabled isDisabled con (inPool.mp member).1 }
  · intro other
    rw [mem_held_erase accounted.heldOnce isHeld, accounted.heldInUse other]
    constructor
    · rintro ⟨⟨con, member, rfl, isInUse⟩, different⟩
      exact ⟨con, inPool.mpr ⟨member, different⟩, rfl, isInUse⟩
    · rintro ⟨con, member, rfl, isInUse⟩
      exact ⟨⟨con, (inPool.mp member).1, rfl, isInUse⟩, (inPool.mp member).2⟩
  · intro other isGone
    simp only [DbConnectionPool.remove, List.append_assoc, List.mem_append,
      List.mem_singleton] at isGone
    rcases isGone with isOld | rfl | isLeaked
    · obtain ⟨less, different⟩ := accounted.gone other (List.mem_append_left _ isOld)
      exact ⟨less, fun con member => different con (inPool.mp member).1⟩
    · exact ⟨isOwn ▸ accounted.inPool own ownMember, fun con member => (inPool.mp member).2⟩
    · obtain ⟨less, different⟩ := accounted.gone other (List.mem_append_right _ isLeaked)
      exact ⟨less, fun con member => different con (inPool.mp member).1⟩

/-- A connection that is given back becomes idle. -/
theorem Accounted.putBack (accounted : Accounted pool held handedOut) {client connection : ℕ}
    (isHeld : (client, connection) ∈ held) {own : DbConnectionHelper}
    (ownMember : own ∈ pool.pool) (isOwn : own.connection = connection)
    (remaining : own.useCount ≠ 0) (isEnabled : pool.isEnabled = true) :
    Accounted (pool.inUse connection false) (held.erase (client, connection)) handedOut := by
  refine
    { size := by simpa [DbConnectionPool.inUse] using accounted.size
      distinct := by rw [connections_inUse]; exact accounted.distinct
      heldOnce := nodup_held_erase accounted.heldOnce _
      heldInUse := ?_
      uses := ?_
      useful := ?_
      atMost := accounted.atMost
      inPool := ?_
      known := accounted.known
      gone := ?_
      inUseWhenDisabled := fun isDisabled => Bool.noConfusion (isEnabled.symm.trans isDisabled) }
  · intro other
    simp only [mem_held_erase accounted.heldOnce isHeld, accounted.heldInUse other, mem_inUse]
    constructor
    · rintro ⟨⟨con, member, rfl, isInUse⟩, different⟩
      exact ⟨con, ⟨con, member, (if_neg different).symm⟩, rfl, isInUse⟩
    · rintro ⟨_, ⟨old, isOld, rfl⟩, rfl, isInUse⟩
      split at isInUse
      · cases isInUse
      · rename_i different
        rw [if_neg different]
        exact ⟨⟨old, isOld, rfl, isInUse⟩, different⟩
  · intro changed inChanged
    obtain ⟨old, isOld, rfl⟩ := mem_inUse.mp inChanged
    have uses := accounted.uses old isOld
    split
    · exact uses
    · exact uses
  · intro positive changed inChanged
    obtain ⟨old, isOld, rfl⟩ := mem_inUse.mp inChanged
    obtain ⟨notNegative, notUsedUp⟩ := accounted.useful positive old isOld
    split
    · rename_i same
      rw [accounted.unique isOld ownMember (same.trans isOwn.symm)] at notNegative ⊢
      exact ⟨notNegative, fun _ => remaining⟩
    · exact ⟨notNegative, notUsedUp⟩
  · intro changed inChanged
    obtain ⟨old, isOld, rfl⟩ := mem_inUse.mp inChanged
    rw [connection_inUse]
    exact accounted.inPool old isOld
  · intro other isGone
    obtain ⟨less, different⟩ := accounted.gone other isGone
    refine ⟨less, fun changed inChanged => ?_⟩
    obtain ⟨old, isOld, rfl⟩ := mem_inUse.mp inChanged
    rw [connection_inUse]
    exact different old isOld

theorem Accounted.enable (accounted : Accounted pool held handedOut) :
    Accounted pool.enable held handedOut :=
  { accounted with inUseWhenDisabled := fun isDisabled => Bool.noConfusion isDisabled }

/-- A pool that is disabled keeps the connections in use. -/
theorem Accounted.disable (accounted : Accounted pool held handedOut) :
    Accounted pool.disable held handedOut := by
  simp only [DbConnectionPool.disable]
  split
  · exact accounted
  · have inPool {con : DbConnectionHelper} :
        con ∈ (pool.pool.filter fun con => con.inuse) ↔ con ∈ pool.pool ∧ con.inuse = true :=
      List.mem_filter
    refine
      { size := (List.length_filter_le _ _).trans accounted.size
        distinct := accounted.distinct.sublist (List.filter_sublist.map _)
        heldOnce := accounted.heldOnce
        heldInUse := ?_
        uses := fun con member => accounted.uses con (inPool.mp member).1
        useful := fun positive con member => accounted.useful positive con (inPool.mp member).1
        atMost := accounted.atMost
        inPool := fun con member => accounted.inPool con (inPool.mp member).1
        known := accounted.known
        gone := ?_
        inUseWhenDisabled := fun _ con member => (inPool.mp member).2 }
    · intro connection
      rw [accounted.heldInUse connection]
      constructor
      · rintro ⟨con, member, same, isInUse⟩
        exact ⟨con, inPool.mpr ⟨member, isInUse⟩, same, isInUse⟩
      · rintro ⟨con, member, same, isInUse⟩
        exact ⟨con, (inPool.mp member).1, same, isInUse⟩
    · intro connection isGone
      simp only [List.append_assoc, List.mem_append] at isGone
      rcases isGone with isOld | isIdle | isLeaked
      · obtain ⟨less, different⟩ := accounted.gone connection (List.mem_append_left _ isOld)
        exact ⟨less, fun con member => different con (inPool.mp member).1⟩
      · obtain ⟨idle, idleMember, rfl⟩ := List.mem_map.mp isIdle
        obtain ⟨inOld, notInUse⟩ := List.mem_filter.mp idleMember
        refine ⟨accounted.inPool idle inOld, fun con member same => ?_⟩
        obtain ⟨conInOld, isInUse⟩ := inPool.mp member
        rw [accounted.unique conInOld inOld same] at isInUse
        rw [isInUse] at notInUse
        cases notInUse
      · obtain ⟨less, different⟩ := accounted.gone connection (List.mem_append_right _ isLeaked)
        exact ⟨less, fun con member => different con (inPool.mp member).1⟩

/-! ## The operations -/

theorem Accounted.createConnection (accounted : Accounted pool held handedOut)
    (creation : Creation) : Accounted (pool.createConnection creation).2 held handedOut := by
  simp only [DbConnectionPool.createConnection]
  split
  · exact accounted
  · rename_i notFull
    split
    · exact accounted
    · rename_i isEnabled
      cases creation with
      | created => exact accounted.grow (not_le.mp notFull) (Bool.eq_true_of_not_eq_false isEnabled)
      | refused => exact accounted
      | onCreateConnection => exact accounted.leak

/-- A creation that fails leaves the pool as it was. -/
def SamePool (pool other : DbConnectionPool) : Prop :=
  pool.pool = other.pool ∧ pool.maxpoolsize = other.maxpoolsize ∧
    pool.minpoolsize = other.minpoolsize ∧ pool.maxUseCount = other.maxUseCount ∧
    pool.isEnabled = other.isEnabled ∧ pool.deleted = other.deleted

variable (pool) in
theorem createConnection_samePool {creation : Creation} (fails : creation ≠ .created) :
    SamePool (pool.createConnection creation).2 pool := by
  simp only [DbConnectionPool.createConnection]
  split
  · exact ⟨rfl, rfl, rfl, rfl, rfl, rfl⟩
  · split
    · exact ⟨rfl, rfl, rfl, rfl, rfl, rfl⟩
    · cases creation with
      | created => exact absurd rfl fails
      | refused => exact ⟨rfl, rfl, rfl, rfl, rfl, rfl⟩
      | onCreateConnection => exact ⟨rfl, rfl, rfl, rfl, rfl, rfl⟩

/-- A connection that has been created is idle in an enabled pool. -/
theorem createConnection_created {creation : Creation} {connection : ℕ}
    (isCreated : (pool.createConnection creation).1 = .ok (some connection)) :
    ∃ con ∈ (pool.createConnection creation).2.pool, con.connection = connection ∧
      con.inuse = false ∧ (pool.createConnection creation).2.isEnabled = true := by
  simp only [DbConnectionPool.createConnection] at isCreated ⊢
  split at isCreated
  · cases isCreated
  · rename_i notFull
    split at isCreated
    · cases isCreated
    · rename_i isEnabled
      rw [if_neg notFull, if_neg isEnabled]
      cases creation with
      | created =>
          cases isCreated
          exact ⟨_, List.mem_append_right _ (List.mem_singleton_self _), rfl, rfl,
            Bool.eq_true_of_not_eq_false isEnabled⟩
      | refused => cases isCreated
      | onCreateConnection => cases isCreated

theorem createConnection_isEnabled (creation : Creation) :
    (pool.createConnection creation).2.isEnabled = pool.isEnabled := by
  simp only [DbConnectionPool.createConnection]
  split
  · rfl
  · split
    · rfl
    · cases creation <;> rfl

variable (pool) in
theorem createConnection_ne_some {creation : Creation} (fails : creation ≠ .created)
    (connection : ℕ) : (pool.createConnection creation).1 ≠ .ok (some connection) := by
  simp only [DbConnectionPool.createConnection]
  split
  · exact nofun
  · split
    · exact nofun
    · cases creation with
      | created => exact absurd rfl fails
      | refused => exact nofun
      | onCreateConnection => exact nofun

/-- A connection that is found or created belongs to an enabled pool. -/
theorem Accounted.findOrCreateConnection_some (accounted : Accounted pool held handedOut)
    {outcome : Outcome} {connection : ℕ} {next : DbConnectionPool}
    (found : pool.findOrCreateConnection outcome = (some connection, next)) (client : ℕ) :
    pool.isEnabled = true ∧
      Accounted next ((client, connection) :: held) (connection :: handedOut) := by
  simp only [DbConnectionPool.findOrCreateConnection] at found
  cases isIdle : pool.pool.find? fun con => !con.inuse with
  | some con =>
      simp only [isIdle] at found
      have member := List.mem_of_find?_eq_some isIdle
      have notInUse : con.inuse = false := by simpa using List.find?_some isIdle
      have isEnabled : pool.isEnabled = true := by
        refine Bool.eq_true_of_not_eq_false fun isDisabled => ?_
        exact Bool.noConfusion
          (notInUse.symm.trans (accounted.inUseWhenDisabled isDisabled con member))
      split at found
      · cases found
        exact ⟨isEnabled, accounted.handOut client member notInUse isEnabled⟩
      · cases found
  | none =>
      simp only [isIdle] at found
      have grown := accounted.createConnection outcome.creation
      have created := fun connection =>
        @createConnection_created pool outcome.creation connection
      have enabledBefore : (pool.createConnection outcome.creation).2.isEnabled =
          pool.isEnabled := createConnection_isEnabled outcome.creation
      rcases isResult : pool.createConnection outcome.creation with ⟨_ | _ | own, result⟩
      · simp [isResult] at found
      · simp [isResult] at found
      · simp only [isResult] at found grown created enabledBefore
        obtain ⟨con, member, same, notInUse, isEnabled⟩ := created own rfl
        split at found
        · cases found
          rw [← same]
          exact ⟨enabledBefore.symm.trans isEnabled,
            grown.handOut client member notInUse isEnabled⟩
        · cases found

theorem Accounted.findOrCreateConnection_none (accounted : Accounted pool held handedOut)
    {outcome : Outcome} {next : DbConnectionPool}
    (found : pool.findOrCreateConnection outcome = (none, next)) :
    Accounted next held handedOut := by
  simp only [DbConnectionPool.findOrCreateConnection] at found
  cases isIdle : pool.pool.find? fun con => !con.inuse with
  | some con =>
      simp only [isIdle] at found
      split at found
      · cases found
      · cases found
        exact accounted
  | none =>
      simp only [isIdle] at found
      have grown := accounted.createConnection outcome.creation
      rcases isResult : pool.createConnection outcome.creation with ⟨_ | _ | own, result⟩
      · simp only [isResult] at found grown
        cases found
        exact grown
      · simp only [isResult] at found grown
        cases found
        exact grown
      · simp only [isResult] at found grown
        split at found
        · cases found
        · cases found
          exact grown

/-- When every connection is in use and the creation fails, the pool stays the same. -/
theorem findOrCreateConnection_samePool {outcome : Outcome}
    (fails : outcome.creation ≠ .created) (allInUse : ∀ con ∈ pool.pool, con.inuse = true) :
    (pool.findOrCreateConnection outcome).1 = none ∧
      SamePool (pool.findOrCreateConnection outcome).2 pool := by
  have noIdle : (pool.pool.find? fun con => !con.inuse) = none := by
    rw [List.find?_eq_none]
    intro con member
    simp [allInUse con member]
  have same := createConnection_samePool pool fails
  have notCreated := createConnection_ne_some pool fails
  simp only [DbConnectionPool.findOrCreateConnection, noIdle]
  rcases isResult : pool.createConnection outcome.creation with ⟨_ | _ | own, result⟩
  · simp only [isResult] at same
    exact ⟨rfl, same⟩
  · simp only [isResult] at same
    exact ⟨rfl, same⟩
  · exact absurd (congrArg Prod.fst isResult) (notCreated own)

theorem Accounted.release (accounted : Accounted pool held handedOut) {client : ℕ}
    {con : DbConnectionHelper} (isHeld : (client, con.connection) ∈ held)
    (member : con ∈ pool.pool) (creation : Creation) :
    Accounted (pool.release con creation) (held.erase (client, con.connection)) handedOut := by
  simp only [DbConnectionPool.release, if_pos member]
  split
  · have removed := accounted.remove isHeld
    split
    · exact removed.createConnection creation
    · exact removed
  · rename_i keeps
    rw [not_or] at keeps
    exact accounted.putBack isHeld member rfl keeps.1 (Bool.eq_true_of_not_eq_false keeps.2)

/-! ## The runs -/

namespace Clients

/-- The invariant of a run. -/
def Consistent (clients : Clients) : Prop :=
  Accounted clients.toDbConnectionPool clients.held clients.handedOut

theorem Consistent.newConnection {clients : Clients} (consistent : clients.Consistent)
    (client timeoutInMillisecond : ℕ) (outcome : Outcome) :
    (clients.newConnection client timeoutInMillisecond outcome).2.Consistent := by
  simp only [Clients.newConnection]
  split
  · exact consistent
  · rcases isFound : clients.findOrCreateConnection outcome with ⟨_ | connection, pool⟩
    · have same := consistent.findOrCreateConnection_none isFound
      simp only
      split
      · exact same
      · exact same
    · exact (consistent.findOrCreateConnection_some isFound client).2

theorem Consistent.wakeUp {clients : Clients} (consistent : clients.Consistent) (client : ℕ)
    (outcome : Outcome) : (clients.wakeUp client outcome).2.Consistent := by
  simp only [Clients.wakeUp]
  rcases isFound : clients.findOrCreateConnection outcome with ⟨_ | connection, pool⟩
  · exact consistent.findOrCreateConnection_none isFound
  · exact (consistent.findOrCreateConnection_some isFound client).2

theorem Consistent.release {clients : Clients} (consistent : clients.Consistent)
    {client connection : ℕ} (isHeld : (client, connection) ∈ clients.held)
    (creation : Creation) : (clients.release client connection creation).Consistent := by
  simp only [Clients.release]
  cases isFound : clients.pool.find? fun con => con.connection = connection with
  | none => exact consistent
  | some con =>
      have member := List.mem_of_find?_eq_some isFound
      have same : con.connection = connection := by simpa using List.find?_some isFound
      subst same
      exact Accounted.release consistent isHeld member creation

theorem Consistent.step {clients : Clients} (consistent : clients.Consistent)
    (operation : Operation) : (clients.step operation).Consistent := by
  cases operation with
  | newConnection client timeoutInMillisecond outcome =>
      simp only [Clients.step]
      split
      · exact consistent
      · exact consistent.newConnection client timeoutInMillisecond outcome
  | wakeUp client outcome =>
      simp only [Clients.step]
      split
      · exact consistent.wakeUp client outcome
      · exact consistent
  | timedOut client => exact consistent
  | release client connection creation =>
      simp only [Clients.step]
      split
      · rename_i isHeld
        exact consistent.release isHeld creation
      · exact consistent
  | enable => exact Accounted.enable consistent
  | disable => exact Accounted.disable consistent

theorem consistent_createMinpoolsize {pool : DbConnectionPool} (accounted : Accounted pool [] [])
    (creations : List Creation) : Accounted (pool.createMinpoolsize creations) [] [] := by
  induction creations generalizing pool with
  | nil => exact accounted
  | cons creation rest ih =>
      have grown := accounted.createConnection creation
      simp only [DbConnectionPool.createMinpoolsize]
      rcases isResult : pool.createConnection creation with ⟨_ | _ | own, result⟩
      · simpa only [isResult] using grown
      · simpa only [isResult] using grown
      · simp only [isResult] at grown
        exact ih grown

theorem consistent_initial (minpoolsize maxpoolsize : ℕ) (usecount : ℤ)
    (creations : ℕ → Creation) :
    (initial minpoolsize maxpoolsize usecount creations).Consistent := by
  refine consistent_createMinpoolsize ?_ _
  exact
    { size := Nat.zero_le _
      distinct := List.nodup_nil
      heldOnce := List.nodup_nil
      heldInUse := fun connection => by simp
      uses := nofun
      useful := fun _ => nofun
      atMost := fun positive _ => by simpa using positive.trans' (by decide)
      inPool := nofun
      known := nofun
      gone := nofun
      inUseWhenDisabled := fun isDisabled => Bool.noConfusion isDisabled }

theorem consistent_after (minpoolsize maxpoolsize : ℕ) (usecount : ℤ)
    (creations : ℕ → Creation) (operations : List Operation) :
    (after minpoolsize maxpoolsize usecount creations operations).Consistent := by
  have start := consistent_initial minpoolsize maxpoolsize usecount creations
  unfold after
  generalize initial minpoolsize maxpoolsize usecount creations = clients at start
  induction operations generalizing clients with
  | nil => exact start
  | cons operation rest ih => exact ih (clients.step operation) (start.step operation)

end Clients

/-! ## What a step leaves as it was -/

/-- The sizes of the pool. -/
def limits (pool : DbConnectionPool) : ℕ × ℤ := (pool.maxpoolsize, pool.maxUseCount)

variable (pool) in
theorem createConnection_frame (creation : Creation) :
    limits (pool.createConnection creation).2 = limits pool ∧
      (pool.createConnection creation).2.deleted = pool.deleted := by
  simp only [DbConnectionPool.createConnection]
  split
  · exact ⟨rfl, rfl⟩
  · split
    · exact ⟨rfl, rfl⟩
    · cases creation <;> exact ⟨rfl, rfl⟩

variable (pool) in
theorem findOrCreateConnection_frame (outcome : Outcome) :
    limits (pool.findOrCreateConnection outcome).2 = limits pool ∧
      (pool.findOrCreateConnection outcome).2.deleted = pool.deleted := by
  have created := createConnection_frame pool outcome.creation
  simp only [DbConnectionPool.findOrCreateConnection]
  cases pool.pool.find? fun con => !con.inuse with
  | some con =>
      simp only
      split <;> exact ⟨rfl, rfl⟩
  | none =>
      rcases isResult : pool.createConnection outcome.creation with ⟨_ | _ | own, result⟩
      · simpa only [isResult] using created
      · simpa only [isResult] using created
      · simp only [isResult] at created ⊢
        split
        · exact created
        · exact created

variable (pool) in
theorem release_frame (con : DbConnectionHelper) (creation : Creation) :
    limits (pool.release con creation) = limits pool ∧
      pool.deleted ⊆ (pool.release con creation).deleted := by
  have created := createConnection_frame (pool.remove con.connection) creation
  have removed : pool.deleted ⊆ (pool.remove con.connection).deleted :=
    List.subset_append_left _ _
  simp only [DbConnectionPool.release]
  split
  · split
    · split
      · exact ⟨created.1, created.2 ▸ removed⟩
      · exact ⟨rfl, removed⟩
    · exact ⟨rfl, List.Subset.refl _⟩
  · exact ⟨rfl, List.Subset.refl _⟩

namespace Clients

/-- What a step does to the connections that have been handed out and deleted. -/
structure StepFrame (clients next : Clients) : Prop where
  limits : limits next.toDbConnectionPool = limits clients.toDbConnectionPool
  deleted : clients.deleted ⊆ next.deleted
  handedOut : next.handedOut = clients.handedOut ∨
    ∃ connection, clients.isEnabled = true ∧ connection ∉ clients.deleted ∧
      next.handedOut = connection :: clients.handedOut

theorem StepFrame.refl (clients : Clients) : StepFrame clients clients :=
  ⟨rfl, List.Subset.refl _, Or.inl rfl⟩

theorem stepFrame_handOut {clients : Clients} (consistent : clients.Consistent)
    {outcome : Outcome} {connection : ℕ} {pool : DbConnectionPool}
    (isFound : clients.findOrCreateConnection outcome = (some connection, pool)) (client : ℕ) :
    StepFrame clients (clients.handOut client connection pool) := by
  obtain ⟨isEnabled, next⟩ := consistent.findOrCreateConnection_some isFound client
  have frame := findOrCreateConnection_frame clients.toDbConnectionPool outcome
  simp only [isFound] at frame
  refine ⟨frame.1, ?_, Or.inr ⟨connection, isEnabled, ?_, rfl⟩⟩
  · exact frame.2 ▸ List.Subset.refl _
  · intro isDeleted
    obtain ⟨con, member, same, _⟩ := (next.heldInUse connection).mp List.mem_cons_self
    have isGone := next.gone connection (List.mem_append_left _ (frame.2.symm ▸ isDeleted))
    exact isGone.2 con member same

theorem stepFrame_step {clients : Clients} (consistent : clients.Consistent)
    (operation : Operation) : StepFrame clients (clients.step operation) := by
  cases operation with
  | newConnection client timeoutInMillisecond outcome =>
      simp only [Clients.step]
      split
      · exact StepFrame.refl clients
      · simp only [Clients.newConnection]
        split
        · exact StepFrame.refl clients
        · have frame := findOrCreateConnection_frame clients.toDbConnectionPool outcome
          rcases isFound : clients.findOrCreateConnection outcome with ⟨_ | connection, pool⟩
          · simp only [isFound] at frame ⊢
            split
            · exact ⟨frame.1, frame.2 ▸ List.Subset.refl _, Or.inl rfl⟩
            · exact ⟨frame.1, frame.2 ▸ List.Subset.refl _, Or.inl rfl⟩
          · exact stepFrame_handOut consistent isFound client
  | wakeUp client outcome =>
      simp only [Clients.step]
      split
      · have frame := findOrCreateConnection_frame clients.toDbConnectionPool outcome
        simp only [Clients.wakeUp]
        rcases isFound : clients.findOrCreateConnection outcome with ⟨_ | connection, pool⟩
        · simp only [isFound] at frame ⊢
          exact ⟨frame.1, frame.2 ▸ List.Subset.refl _, Or.inl rfl⟩
        · exact stepFrame_handOut consistent isFound client
      · exact StepFrame.refl clients
  | timedOut client => exact ⟨rfl, List.Subset.refl _, Or.inl rfl⟩
  | release client connection creation =>
      simp only [Clients.step]
      split
      · simp only [Clients.release]
        cases clients.pool.find? fun con => con.connection = connection with
        | none => exact StepFrame.refl clients
        | some con =>
            have frame := release_frame clients.toDbConnectionPool con creation
            exact ⟨frame.1, frame.2, Or.inl rfl⟩
      · exact StepFrame.refl clients
  | enable => exact ⟨rfl, List.Subset.refl _, Or.inl rfl⟩
  | disable =>
      simp only [Clients.step, DbConnectionPool.disable]
      split
      · exact StepFrame.refl clients
      · exact ⟨rfl, List.subset_append_left _ _, Or.inl rfl⟩

theorem limits_initial (minpoolsize maxpoolsize : ℕ) (usecount : ℤ)
    (creations : ℕ → Creation) :
    limits (initial minpoolsize maxpoolsize usecount creations).toDbConnectionPool =
      (max minpoolsize maxpoolsize, usecount) := by
  have filled (creations : List Creation) (pool : DbConnectionPool) :
      limits (pool.createMinpoolsize creations) = limits pool := by
    induction creations generalizing pool with
    | nil => rfl
    | cons creation rest ih =>
        have frame := (createConnection_frame pool creation).1
        simp only [DbConnectionPool.createMinpoolsize]
        rcases isResult : pool.createConnection creation with ⟨_ | _ | own, result⟩
        · simpa only [isResult] using frame
        · simpa only [isResult] using frame
        · simp only [isResult] at frame
          exact (ih result).trans frame
  refine (filled _ _).trans ?_
  simp only [limits]
  split
  · rw [max_eq_left (by omega)]
  · rw [max_eq_right (by omega)]

theorem limits_after (minpoolsize maxpoolsize : ℕ) (usecount : ℤ) (creations : ℕ → Creation)
    (operations : List Operation) :
    limits (after minpoolsize maxpoolsize usecount creations operations).toDbConnectionPool =
      (max minpoolsize maxpoolsize, usecount) := by
  induction operations using List.reverseRecOn with
  | nil => exact limits_initial minpoolsize maxpoolsize usecount creations
  | append_singleton earlier operation ih =>
      have consistent := consistent_after minpoolsize maxpoolsize usecount creations earlier
      simp only [after, Runs.run_append, Runs.run_cons, Runs.run_nil] at ih consistent ⊢
      exact (stepFrame_step consistent operation).limits.trans ih

/-- A step that fails to create a connection leaves the pool and the clients as they were. -/
structure Unchanged (clients next : Clients) : Prop where
  pool : SamePool next.toDbConnectionPool clients.toDbConnectionPool
  held : next.held = clients.held
  handedOut : next.handedOut = clients.handedOut

theorem newConnection_unchanged {clients : Clients} (client timeoutInMillisecond : ℕ)
    {outcome : Outcome} (fails : outcome.creation ≠ .created)
    (allInUse : ∀ con ∈ clients.pool, con.inuse = true) :
    Unchanged clients (clients.newConnection client timeoutInMillisecond outcome).2 := by
  obtain ⟨isNone, same⟩ := findOrCreateConnection_samePool fails allInUse
  simp only [Clients.newConnection]
  split
  · exact ⟨⟨rfl, rfl, rfl, rfl, rfl, rfl⟩, rfl, rfl⟩
  · rcases isFound : clients.findOrCreateConnection outcome with ⟨_ | connection, pool⟩
    · simp only [isFound] at same ⊢
      split
      · exact ⟨same, rfl, rfl⟩
      · exact ⟨same, rfl, rfl⟩
    · rw [isFound] at isNone
      cases isNone

theorem wakeUp_unchanged {clients : Clients} (client : ℕ) {outcome : Outcome}
    (fails : outcome.creation ≠ .created)
    (allInUse : ∀ con ∈ clients.pool, con.inuse = true) :
    Unchanged clients (clients.wakeUp client outcome).2 := by
  obtain ⟨isNone, same⟩ := findOrCreateConnection_samePool fails allInUse
  simp only [Clients.wakeUp]
  rcases isFound : clients.findOrCreateConnection outcome with ⟨_ | connection, pool⟩
  · simp only [isFound] at same ⊢
    exact ⟨same, rfl, rfl⟩
  · rw [isFound] at isNone
    cases isNone

/-- The accounts of the pool, for any clients and any order of their steps. -/
theorem pool_accounting (minpoolsize maxpoolsize : ℕ) (usecount : ℤ) (creations : ℕ → Creation)
    (operations : List Operation) :
    let clients := after minpoolsize maxpoolsize usecount creations operations
    clients.pool.length ≤ max minpoolsize maxpoolsize ∧
    (clients.held.map Prod.snd).Nodup ∧
    (1 ≤ usecount → ∀ connection, (clients.handedOut.count connection : ℤ) ≤ usecount) ∧
    (∀ connection ∈ clients.deleted,
      (∀ con ∈ clients.pool, con.connection ≠ connection) ∧
      connection ∉ clients.held.map Prod.snd ∧
      ∀ operation, connection ∈ (clients.step operation).deleted ∧
        (clients.step operation).handedOut.count connection =
          clients.handedOut.count connection) ∧
    (clients.isEnabled = false → (∀ con ∈ clients.pool, con.inuse = true) ∧
      ∀ operation, (clients.step operation).handedOut = clients.handedOut) ∧
    (∀ creation, creation ≠ .created →
      SamePool (clients.createConnection creation).2 clients.toDbConnectionPool) ∧
    (∀ client timeoutInMillisecond outcome, outcome.creation ≠ .created →
      (∀ con ∈ clients.pool, con.inuse = true) →
        Unchanged clients (clients.newConnection client timeoutInMillisecond outcome).2 ∧
        Unchanged clients (clients.wakeUp client outcome).2) := by
  intro clients
  have accounted : clients.Consistent :=
    consistent_after minpoolsize maxpoolsize usecount creations operations
  have limits := limits_after minpoolsize maxpoolsize usecount creations operations
  have maxpool : clients.maxpoolsize = max minpoolsize maxpoolsize := congrArg Prod.fst limits
  have maxUse : clients.maxUseCount = usecount := congrArg Prod.snd limits
  refine ⟨maxpool ▸ accounted.size, accounted.heldOnce, ?_, ?_, ?_, ?_, ?_⟩
  · rw [← maxUse]
    exact accounted.atMost
  · intro connection isDeleted
    have notInPool := (accounted.gone connection (List.mem_append_left _ isDeleted)).2
    refine ⟨notInPool, ?_, fun operation => ?_⟩
    · intro isHeld
      obtain ⟨con, member, same, _⟩ := (accounted.heldInUse connection).mp isHeld
      exact notInPool con member same
    · have frame := stepFrame_step accounted operation
      refine ⟨frame.deleted isDeleted, ?_⟩
      rcases frame.handedOut with same | ⟨other, _, notDeleted, isNew⟩
      · rw [same]
      · rw [isNew, List.count_cons_of_ne]
        rintro rfl
        exact notDeleted isDeleted
  · intro isDisabled
    refine ⟨accounted.inUseWhenDisabled isDisabled, fun operation => ?_⟩
    rcases (stepFrame_step accounted operation).handedOut with same | ⟨_, isEnabled, _⟩
    · exact same
    · exact Bool.noConfusion (isEnabled.symm.trans isDisabled)
  · exact fun creation fails => createConnection_samePool _ fails
  · intro client timeoutInMillisecond outcome fails allInUse
    exact ⟨newConnection_unchanged client timeoutInMillisecond fails allInUse,
      wakeUp_unchanged client fails allInUse⟩

end Clients

end miutil.pgpool

end Wdb2ts
