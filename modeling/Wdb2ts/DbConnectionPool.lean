import Wdb2ts.Lib.Runs

/-!
# The pool of database connections

`DbConnectionPool` keeps its connections, idle or in use, in one list.  Every member function
holds the mutex of the pool, except that `newConnection` gives it up while it waits for a
connection that is released, so a waiting client has a step of its own when it wakes up.
-/

namespace Wdb2ts

namespace miutil.pgpool

/-- A connection of the pool.  The connections are numbered as they are created, and the number
plays the part of the pointer. -/
structure DbConnectionHelper where
  connection : ℕ
  useCount : ℤ
  inuse : Bool
  deriving DecidableEq, Repr

/-- `DbConnectionHelper::inUse`. -/
def DbConnectionHelper.inUse (f : Bool) (con : DbConnectionHelper) : DbConnectionHelper :=
  { con with
    useCount := if f then con.useCount - 1 else con.useCount
    inuse := f }

/-- The exceptions of the pool. -/
inductive DbConnectionException where
  | disabled
  | maxUse
  | create
  deriving DecidableEq, Repr

/-- What the creation of a connection does: the server may refuse the connection, and
`onCreateConnection` may throw. -/
inductive Creation where
  | created
  | refused
  | onCreateConnection
  deriving DecidableEq, Repr

/-- What the calls of `findOrCreateConnection` to other code do. -/
structure Outcome where
  creation : Creation
  onNewConnection : Bool
  deriving DecidableEq, Repr

/-- The members of the pool.  `deleted` are the connections that have been deleted, and `leaked`
those whose `onCreateConnection` has thrown, which are neither in the pool nor deleted. -/
structure DbConnectionPool where
  pool : List DbConnectionHelper
  maxpoolsize : ℕ
  minpoolsize : ℕ
  maxUseCount : ℤ
  isEnabled : Bool
  created : ℕ
  deleted : List ℕ
  leaked : List ℕ
  deriving DecidableEq, Repr

namespace DbConnectionPool

/-- `con->inUse( f )` for a connection of the pool. -/
def inUse (connection : ℕ) (f : Bool) (pool : DbConnectionPool) : DbConnectionPool :=
  { pool with
    pool := pool.pool.map fun con => if con.connection = connection then con.inUse f else con }

/-- Delete a connection and erase it from the pool. -/
def remove (connection : ℕ) (pool : DbConnectionPool) : DbConnectionPool :=
  { pool with
    pool := pool.pool.eraseP fun con => con.connection = connection
    deleted := pool.deleted ++ [connection] }

/-- `createConnection`, with the pool behind it. -/
def createConnection (creation : Creation) (pool : DbConnectionPool) :
    Except DbConnectionException (Option ℕ) × DbConnectionPool :=
  if pool.maxpoolsize ≤ pool.pool.length then (.ok none, pool)
  else if pool.isEnabled = false then (.error .disabled, pool)
  else
    match creation with
    | .refused => (.error .create, pool)
    | .onCreateConnection =>
        (.error .create,
          { pool with created := pool.created + 1, leaked := pool.leaked ++ [pool.created] })
    | .created =>
        (.ok (some pool.created),
          { pool with
            pool := pool.pool ++ [⟨pool.created, pool.maxUseCount, false⟩]
            created := pool.created + 1 })

/-- `findOrCreateConnection`, with the pool behind it. -/
def findOrCreateConnection (outcome : Outcome) (pool : DbConnectionPool) :
    Option ℕ × DbConnectionPool :=
  match pool.pool.find? fun con => !con.inuse with
  | some con =>
      if outcome.onNewConnection then (some con.connection, pool.inUse con.connection true)
      else (none, pool)
  | none =>
      match pool.createConnection outcome.creation with
      | (.ok (some connection), grown) =>
          if outcome.onNewConnection then (some connection, grown.inUse connection true)
          else (none, grown)
      | (.ok none, same) => (none, same)
      | (.error _, same) => (none, same)

/-- `createMinpoolsize`, with what each creation does. -/
def createMinpoolsize : List Creation → DbConnectionPool → DbConnectionPool
  | [], pool => pool
  | creation :: rest, pool =>
      match pool.createConnection creation with
      | (.ok (some _), grown) => createMinpoolsize rest grown
      | (.ok none, same) => same
      | (.error _, same) => same

/-- The constructor of the pool, from the sizes of a `DbDef`, with what each of its creations
does. -/
def new (minpoolsize maxpoolsize : ℕ) (usecount : ℤ) (creations : ℕ → Creation) :
    DbConnectionPool :=
  let smallest := if maxpoolsize < minpoolsize then maxpoolsize else minpoolsize
  let largest := if maxpoolsize < minpoolsize then minpoolsize else maxpoolsize
  createMinpoolsize ((List.range smallest).map creations)
    { pool := []
      maxpoolsize := largest
      minpoolsize := smallest
      maxUseCount := usecount
      isEnabled := true
      created := 0
      deleted := []
      leaked := [] }

/-- `disable`: the idle connections are deleted. -/
def disable (pool : DbConnectionPool) : DbConnectionPool :=
  if pool.isEnabled = false then pool
  else
    { pool with
      isEnabled := false
      pool := pool.pool.filter fun con => con.inuse
      deleted := pool.deleted ++
        (pool.pool.filter fun con => !con.inuse).map DbConnectionHelper.connection }

/-- `enable`. -/
def enable (pool : DbConnectionPool) : DbConnectionPool := { pool with isEnabled := true }

/-- `release`: a connection that is used up, or that comes back to a disabled pool, is deleted. -/
def release (con : DbConnectionHelper) (creation : Creation) (pool : DbConnectionPool) :
    DbConnectionPool :=
  if con.useCount = 0 ∨ pool.isEnabled = false then
    if con ∈ pool.pool then
      let rest := pool.remove con.connection
      if rest.isEnabled = true ∧ rest.pool.length < rest.minpoolsize then
        (rest.createConnection creation).2
      else rest
    else pool
  else pool.inUse con.connection false

end DbConnectionPool

/-- A pool and its clients: the connections they hold, the clients that wait in `newConnection`,
and the connections that have been handed out so far, each time one. -/
structure Clients extends DbConnectionPool where
  held : List (ℕ × ℕ)
  waiting : List ℕ
  handedOut : List ℕ
  deriving DecidableEq, Repr

/-- How a call of `newConnection` goes on. -/
inductive Reply where
  | connection (connection : ℕ)
  | threw (exception : DbConnectionException)
  | waits
  deriving DecidableEq, Repr

/-- A step of a client, or of the owner of the pool. -/
inductive Operation where
  | newConnection (client timeoutInMillisecond : ℕ) (outcome : Outcome)
  | wakeUp (client : ℕ) (outcome : Outcome)
  | timedOut (client : ℕ)
  | release (client connection : ℕ) (creation : Creation)
  | enable
  | disable
  deriving DecidableEq, Repr

namespace Clients

/-- The client gets the connection. -/
def handOut (client connection : ℕ) (pool : DbConnectionPool) (clients : Clients) : Clients :=
  { clients with
    toDbConnectionPool := pool
    held := (client, connection) :: clients.held
    waiting := clients.waiting.erase client
    handedOut := connection :: clients.handedOut }

/-- `newConnection`, up to the point where it waits. -/
def newConnection (client timeoutInMillisecond : ℕ) (outcome : Outcome) (clients : Clients) :
    Reply × Clients :=
  if clients.isEnabled = false then (.threw .disabled, clients)
  else
    match clients.findOrCreateConnection outcome with
    | (some connection, pool) => (.connection connection, clients.handOut client connection pool)
    | (none, pool) =>
        if timeoutInMillisecond = 0 ∧ pool.maxpoolsize ≤ pool.pool.length then
          (.threw .maxUse, { clients with toDbConnectionPool := pool })
        else
          (.waits,
            { clients with toDbConnectionPool := pool, waiting := client :: clients.waiting })

/-- `newConnection` behind its wait, when the client has been notified. -/
def wakeUp (client : ℕ) (outcome : Outcome) (clients : Clients) : Reply × Clients :=
  match clients.findOrCreateConnection outcome with
  | (some connection, pool) => (.connection connection, clients.handOut client connection pool)
  | (none, pool) =>
      (.threw .maxUse,
        { clients with toDbConnectionPool := pool, waiting := clients.waiting.erase client })

/-- The last pointer of a client to a connection goes, and the connection is released. -/
def release (client connection : ℕ) (creation : Creation) (clients : Clients) : Clients :=
  match clients.pool.find? fun con => con.connection = connection with
  | none => clients
  | some con =>
      { clients with
        toDbConnectionPool := clients.toDbConnectionPool.release con creation
        held := clients.held.erase (client, connection) }

/-- One step.  A client that waits does nothing else, and only a connection that is held can be
released. -/
def step (clients : Clients) : Operation → Clients
  | .newConnection client timeoutInMillisecond outcome =>
      if client ∈ clients.waiting then clients
      else (clients.newConnection client timeoutInMillisecond outcome).2
  | .wakeUp client outcome =>
      if client ∈ clients.waiting then (clients.wakeUp client outcome).2 else clients
  | .timedOut client => { clients with waiting := clients.waiting.erase client }
  | .release client connection creation =>
      if (client, connection) ∈ clients.held then clients.release client connection creation
      else clients
  | .enable => { clients with toDbConnectionPool := clients.toDbConnectionPool.enable }
  | .disable => { clients with toDbConnectionPool := clients.toDbConnectionPool.disable }

/-- A new pool without clients. -/
def initial (minpoolsize maxpoolsize : ℕ) (usecount : ℤ) (creations : ℕ → Creation) : Clients :=
  { toDbConnectionPool := DbConnectionPool.new minpoolsize maxpoolsize usecount creations
    held := []
    waiting := []
    handedOut := [] }

/-- A pool and its clients after some steps. -/
def after (minpoolsize maxpoolsize : ℕ) (usecount : ℤ) (creations : ℕ → Creation)
    (operations : List Operation) : Clients :=
  Runs.run step (initial minpoolsize maxpoolsize usecount creations) operations

end Clients

end miutil.pgpool

end Wdb2ts
