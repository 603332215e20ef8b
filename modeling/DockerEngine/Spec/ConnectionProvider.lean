import DockerEngine.Native.ConnectionProvider
import DockerEngine.ForStd.List
import Mathlib.Tactic.Common

/-!
# Whose connection a call gets

A connection that the driver makes for a call has the address and the credentials of that
call. The pool remembers the address alone, so a later call with other credentials gets
the connection of the first one.

- `connection_matches`: the runs in which calls that share a pooled connection agree on
  their credentials
- `query_as_modify`: the timeline is read over the connection that seeded it
-/

namespace ConnectionProvider

/-- A call that finds a connection in the pool passes the credentials it was made with. -/
def SharesCredentials (s : Provider) : ProviderOp → Prop
  | .call url database options _ => ∀ conn c, s.pool (addressOf url database) = some conn →
      s.conns[conn]? = some c → c.opts.credentials = options.credentials
  | .opened _ => True

/-- The connection was made for the address and with the credentials of the call. -/
def Connection.Matches (c : Connection) (call : Call) : Prop :=
  c.address = addressOf call.url call.database ∧
    c.opts.credentials = call.options.credentials

/-- The default options have no credentials, so those of the call are passed on. -/
theorem credentials_assign (options : Options) :
    (assign defaultOptions options).credentials = options.credentials := by
  simp [Options.credentials, assign, defaultOptions, List.lookup_append, List.lookup_cons]

theorem Provider.mem_answer {s : Provider} {url database : String} {options : Options}
    {promise : Promise} {call : Call} : call ∈ (s.answer url database options promise).calls ↔
      call ∈ s.calls ∨ call = ⟨url, database, options, promise⟩ := by
  rw [Provider.answer, List.mem_append, List.mem_singleton]

/-- The pool is right about addresses, and a call waits for a connection of its own or got
    one that matches. -/
structure Provider.Inv (s : Provider) : Prop where
  pooled : ∀ addr conn, s.pool addr = some conn → ∃ c, s.conns[conn]? = some c ∧ c.address = addr
  served : ∀ call ∈ s.calls, ∀ conn,
    call.promise = .pending conn ∨ call.promise = .resolved conn →
      ∃ c, s.conns[conn]? = some c ∧ c.Matches call

namespace Provider.Inv

variable {s s' : Provider}

theorem loaded (h : s.Loaded) : s.Inv := by
  subst h
  constructor
  · intro addr conn h
    simp at h
  · intro call h
    simp at h

/-- A call that is answered with a connection that matches it, or not at all. -/
theorem answer (hs : s.Inv) {url database : String} {options : Options} {promise : Promise}
    (hmatch : ∀ conn, promise = .pending conn ∨ promise = .resolved conn →
      ∃ c, s.conns[conn]? = some c ∧ c.Matches ⟨url, database, options, promise⟩) :
    (s.answer url database options promise).Inv := by
  refine ⟨hs.pooled, fun call hcall => ?_⟩
  obtain hold | rfl := mem_answer.mp hcall
  · exact hs.served call hold
  · exact hmatch

/-- A new connection changes nothing for the calls before it. -/
theorem connect (hs : s.Inv) (c : Connection) : (s.connect c).Inv := by
  constructor
  · intro addr conn hpool
    obtain ⟨c', hc', haddr⟩ := hs.pooled addr conn hpool
    exact ⟨c', List.getElem?_concat_of_some hc', haddr⟩
  · intro call hcall conn hpromise
    obtain ⟨c', hc', hmatch⟩ := hs.served call hcall conn hpromise
    exact ⟨c', List.getElem?_concat_of_some hc', hmatch⟩

/-- What a settled call got is what it waited for, or what it had before. -/
theorem settle_promise {call : Call} {conn k : Nat}
    (h : (call.settle k).promise = .pending conn ∨ (call.settle k).promise = .resolved conn) :
    call.promise = .pending conn ∨ call.promise = .resolved conn := by
  unfold Call.settle at h
  split at h
  · next hpending =>
    simp only [reduceCtorEq, Promise.resolved.injEq, false_or] at h
    subst h
    exact .inl hpending
  · exact h

theorem settle_matches {c : Connection} {call : Call} {k : Nat} (h : c.Matches call) :
    c.Matches (call.settle k) := by
  unfold Call.settle
  split
  · exact h
  · exact h

theorem step {op : ProviderOp} (hs : s.Inv) (hop : SharesCredentials s op)
    (hstep : s.step op = some s') : s'.Inv := by
  cases op with
  | call url database options thrown =>
    simp only [Provider.step] at hstep
    split at hstep
    -- the address is in the pool: the condition is about this call
    · next conn hpool =>
      cases hstep
      apply hs.answer
      intro conn' hconn
      simp only [reduceCtorEq, Promise.resolved.injEq, false_or] at hconn
      subst hconn
      obtain ⟨c, hc, haddr⟩ := hs.pooled _ _ hpool
      exact ⟨c, hc, haddr, hop conn c hpool hc⟩
    · split at hstep
      · cases hstep
        apply hs.answer
        intro conn hconn
        simp at hconn
      -- the connection that is made for the call has its credentials
      · cases hstep
        apply (hs.connect _).answer
        intro conn hconn
        simp only [Promise.pending.injEq, reduceCtorEq, or_false] at hconn
        subst hconn
        exact ⟨_, List.getElem?_concat_length, rfl, credentials_assign options⟩
  | opened conn =>
    simp only [Provider.step] at hstep
    split at hstep
    · simp at hstep
    · next c hc =>
      cases hstep
      constructor
      · intro addr conn' hpool
        dsimp only at hpool ⊢
        by_cases haddr : addr = c.address
        · subst haddr
          rw [Function.update_self] at hpool
          cases hpool
          exact ⟨c, hc, rfl⟩
        · rw [Function.update_of_ne haddr] at hpool
          exact hs.pooled addr conn' hpool
      · intro call hcall conn' hpromise
        obtain ⟨call₀, hcall₀, rfl⟩ := List.mem_map.mp hcall
        obtain ⟨c', hc', hmatch⟩ := hs.served call₀ hcall₀ conn' (settle_promise hpromise)
        exact ⟨c', hc', settle_matches hmatch⟩

end Provider.Inv

/-- In every run in which a call that finds a pooled connection passes the credentials that
    connection was made with: each promise that is resolved, with whatever order of the
    `open` events, is resolved with a connection to the address of its call that was made
    with the credentials of its call. -/
theorem connection_matches {s : Provider} (h : providerSystem.ReachableVia SharesCredentials s) :
    ∀ call ∈ s.calls, ∀ conn, call.promise = .resolved conn →
      ∃ c, s.conns[conn]? = some c ∧ c.address = addressOf call.url call.database ∧
        c.opts.credentials = call.options.credentials := by
  have hinv : s.Inv :=
    h.invariant (fun _ => Provider.Inv.loaded) fun _ _ _ hs hop hstep => hs.step hop hstep
  intro call hcall conn hpromise
  exact hinv.served call hcall conn (.inr hpromise)

/-- A call with `creds` has been made, and its connection has opened. -/
def openedWith (creds : Options) : Provider where
  pool := Function.update (fun _ => none) (addressOf "mongo:27017" "hackersHallDemoDb") (some 0)
  conns := [⟨addressOf "mongo:27017" "hackersHallDemoDb", assign defaultOptions creds⟩]
  calls := [⟨"mongo:27017", "hackersHallDemoDb", creds, .resolved 0⟩]

theorem openedWith_reachable (creds : Options) :
    providerSystem.ReachableVia SharesCredentials (openedWith creds) := by
  have hinit : providerSystem.ReachableVia SharesCredentials ⟨fun _ => none, [], []⟩ := .init rfl
  -- the pool is empty, so nothing is shared
  have hcall : SharesCredentials ⟨fun _ => none, [], []⟩ (getTimelineItemModel creds) := by
    intro conn c hpool
    simp at hpool
  have h₁ := hinit.step hcall rfl
  exact h₁.step (e := .opened 0) (by simp only [SharesCredentials]) rfl

theorem openedWith_pool (creds : Options) :
    (openedWith creds).pool (addressOf "mongo:27017" "hackersHallDemoDb") = some 0 := by
  simp only [openedWith, Function.update_self]

/-- The next call gets the same connection, whoever makes it. -/
theorem openedWith_step (creds creds' : Options) :
    providerSystem.step (openedWith creds) (getTimelineItemModel creds') =
      some ((openedWith creds).answer "mongo:27017" "hackersHallDemoDb" creds' (.resolved 0)) := by
  simp only [providerSystem, Provider.step, getTimelineItemModel, openedWith_pool]

/-- Two requests for the timeline share the connection of the first. -/
theorem connection_matches_routes :
    ∃ s, providerSystem.ReachableVia SharesCredentials s ∧
      s.calls.map Call.promise = [.resolved 0, .resolved 0] ∧
      ∃ c, s.conns[0]? = some c ∧ c.opts.credentials = routeCreds.credentials := by
  have hshare : SharesCredentials (openedWith routeCreds) (getTimelineItemModel routeCreds) := by
    intro conn c hpool hc
    rw [openedWith_pool] at hpool
    cases hpool
    cases hc
    exact credentials_assign routeCreds
  have hreach := (openedWith_reachable routeCreds).step hshare (openedWith_step _ _)
  obtain ⟨c, hc, -, hcred⟩ := connection_matches hreach _ List.mem_cons_self 0 rfl
  exact ⟨_, hreach, rfl, c, hc, hcred⟩

/-- The task that seeds the database opens a connection as `modify`; the request that then
    asks for the `query` user is served over it. -/
theorem query_as_modify :
    ∃ s, providerSystem.Reachable s ∧
      ⟨"mongo:27017", "hackersHallDemoDb", routeCreds, .resolved 0⟩ ∈ s.calls ∧
      routeCreds.credentials.1 = some (.string "query") ∧
      ∃ c, s.conns[0]? = some c ∧ c.opts.credentials.1 = some (.string "modify") := by
  have hinit : providerSystem.Reachable ⟨fun _ => none, [], []⟩ := .init rfl
  have hopened : providerSystem.Reachable (openedWith seedCreds) :=
    hinit.run [getTimelineItemModel seedCreds, .opened 0] rfl
  have hreach := hopened.step trivial (openedWith_step seedCreds routeCreds)
  refine ⟨_, hreach, ?_, rfl, _, rfl, rfl⟩
  apply List.mem_append_right
  exact List.mem_singleton_self _

end ConnectionProvider
