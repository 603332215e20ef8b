import DockerEngine.Native.ConnectionEvents
import DockerEngine.Spec.ConnectionProvider

/-!
# One connection for all calls

The pool is asked when the provider is called, and filled when a connection opens, so calls in
between make connections of their own. An error settles nothing: the call that made the connection
goes on waiting.

- `Driver.Inv`: what holds as long as calls do not overlap and connections open
- `shared_iff_careful`: the runs in which all calls for an address share one connection, and no
  call waits for an event that has been
- `Driver.provider_reachable`: an error changes nothing in the provider
- `Driver.pending_stays`: nothing but the `open` event ends the wait
-/

namespace ConnectionProvider

variable {s s' : Driver} {op : DriverOp}

/-- What is to hold for an address: one connection, as long as none has failed; a call that is
    resolved has the pooled one; and no call waits for a connection that has been reported. -/
structure Driver.Shared (s : Driver) (addr : String) : Prop where
  one : (∀ conn ∈ s.failed, s.provider.addressAt conn ≠ some addr) →
    ∀ i j, s.provider.addressAt i = some addr → s.provider.addressAt j = some addr → i = j
  same : ∀ call ∈ s.provider.calls, call.address = addr → ∀ conn,
    call.promise = .resolved conn → s.provider.pool addr = some conn
  settled : ∀ call ∈ s.provider.calls, call.address = addr → ∀ conn,
    call.promise = .pending conn → ¬s.Reported conn

/-- A call makes a connection only if none has been made for its address, and a connection fails
    only when no call waits for it. -/
def Driver.Careful (s : Driver) : DriverOp → Prop
  | .provider (.call url database _ thrown) =>
    s.provider.pool (addressOf url database) = none → thrown = false →
      ∀ conn, s.provider.addressAt conn ≠ some (addressOf url database)
  | .provider (.opened _) => True
  | .error conn _ => ∀ call ∈ s.provider.calls, call.promise ≠ .pending conn

/-- What a step does. -/
inductive Driver.Moves (s : Driver) : DriverOp → Driver → Prop
  /-- the connection is in the pool -/
  | pooled {url database : String} {options : Options} {thrown : Bool} {conn : Nat}
    (hpool : s.provider.pool (addressOf url database) = some conn) :
    Moves s (.provider (.call url database options thrown))
      { s with provider := s.provider.answer url database options (.resolved conn) }
  | thrown {url database : String} {options : Options}
    (hpool : s.provider.pool (addressOf url database) = none) :
    Moves s (.provider (.call url database options true))
      { s with provider := s.provider.answer url database options .rejected }
  | connect {url database : String} {options : Options}
    (hpool : s.provider.pool (addressOf url database) = none) :
    Moves s (.provider (.call url database options false))
      { s with
        provider :=
          (s.provider.connect ⟨addressOf url database, assign defaultOptions options⟩).answer
            url database options (.pending s.provider.conns.length) }
  | opened {conn : Nat} {c : Connection} (hc : s.provider.conns[conn]? = some c) :
    Moves s (.provider (.opened conn))
      { s with
        provider := { s.provider with
          pool := Function.update s.provider.pool c.address (some conn)
          calls := s.provider.calls.map (Call.settle conn) }
        opened := s.opened ++ [conn] }
  | error {conn : Nat} {err : String} (hconn : conn < s.provider.conns.length) :
    Moves s (.error conn err)
      { s with
        failed := s.failed ++ [conn]
        console := s.console ++ ["MongoDB error: " ++ err] }

theorem Driver.step_cases (h : s.step op = some s') : s.Moves op s' := by
  cases op with
  | error conn err =>
    rw [Driver.step] at h
    split at h
    · next hconn =>
      cases h
      exact .error hconn
    · cases h
  | provider op =>
    obtain ⟨provider, hstep, rfl⟩ := Option.map_eq_some_iff.mp h
    cases op with
    | call url database options thrown =>
      simp only [ProviderOp.opens, List.append_nil]
      simp only [Provider.step] at hstep
      split at hstep
      · next conn hpool =>
        cases hstep
        exact .pooled hpool
      · next hpool =>
        cases thrown with
        | true =>
          cases hstep
          exact .thrown hpool
        | false =>
          cases hstep
          exact .connect hpool
    | opened conn =>
      simp only [Provider.step] at hstep
      split at hstep
      · cases hstep
      · next c hc =>
        cases hstep
        exact .opened hc

/-! ## Calls that do not overlap -/

/-- The call waits for the connection, or got it. -/
def Call.Uses (call : Call) (conn : Nat) : Prop :=
  call.promise = .pending conn ∨ call.promise = .resolved conn

theorem Call.uses_settle {call : Call} {conn k : Nat} :
    (call.settle k).Uses conn ↔ call.Uses conn := by
  refine ⟨Provider.Inv.settle_promise, fun h => ?_⟩
  unfold Call.settle
  split
  · next hpending =>
    rw [Uses, hpending] at h
    simp only [Promise.pending.injEq, reduceCtorEq, or_false] at h
    exact .inr (congrArg Promise.resolved h)
  · exact h

@[simp] theorem Call.settle_address (call : Call) (k : Nat) :
    (call.settle k).address = call.address := by
  unfold Call.settle
  split <;> rfl

/-- A call that waits for another connection is left alone. -/
theorem Call.settle_of_ne {call : Call} {conn k : Nat} (h : call.promise = .pending conn)
    (hne : conn ≠ k) : call.settle k = call := by
  rw [Call.settle, if_neg]
  rw [h]
  exact fun heq => hne (Promise.pending.inj heq)

/-- A settled call that waits was not the one to be settled. -/
theorem Call.settle_pending {call : Call} {conn k : Nat}
    (h : (call.settle k).promise = .pending conn) : call.promise = .pending conn ∧ conn ≠ k := by
  unfold Call.settle at h
  split at h
  · cases h
  · next hne =>
    refine ⟨h, fun heq => hne ?_⟩
    rw [h, heq]

theorem Provider.addressAt_connect {s : Provider} {c : Connection} {i : Nat} {addr : String} :
    (s.connect c).addressAt i = some addr ↔
      s.addressAt i = some addr ∨ (i = s.conns.length ∧ c.address = addr) := by
  simp only [Provider.addressAt, Provider.connect, Option.map_eq_some_iff]
  constructor
  · rintro ⟨c', hc', haddr⟩
    obtain hold | ⟨hi, rfl⟩ := List.getElem?_concat_cases hc'
    · exact .inl ⟨c', hold, haddr⟩
    · exact .inr ⟨hi, haddr⟩
  · rintro (⟨c', hc', haddr⟩ | ⟨rfl, haddr⟩)
    · exact ⟨c', List.getElem?_concat_of_some hc', haddr⟩
    · exact ⟨c, List.getElem?_concat_length, haddr⟩

theorem Provider.length_connect (s : Provider) (c : Connection) :
    (s.connect c).conns.length = s.conns.length + 1 := by
  rw [Provider.connect, List.length_append, List.length_singleton]

theorem Provider.addressAt_lt {s : Provider} {i : Nat} {addr : String}
    (h : s.addressAt i = some addr) : i < s.conns.length := by
  obtain ⟨c, hc, -⟩ := Option.map_eq_some_iff.mp h
  exact (List.getElem?_eq_some_iff.mp hc).1

theorem Driver.reported_opened {provider : Provider} {conn k : Nat} :
    Driver.Reported { s with provider, opened := s.opened ++ [conn] } k ↔
      s.Reported k ∨ k = conn := by
  simp only [Driver.Reported, List.mem_append, List.mem_singleton]
  exact or_right_comm

theorem Driver.reported_failed {console : List String} {conn k : Nat} :
    Driver.Reported { s with failed := s.failed ++ [conn], console } k ↔
      s.Reported k ∨ k = conn := by
  simp only [Driver.Reported, List.mem_append, List.mem_singleton]
  exact or_assoc.symm

/-- There is one connection for an address, which all its calls wait for or have got; it is in the
    pool once one of them has got it. -/
structure Driver.Inv (s : Driver) : Prop where
  unique : ∀ addr i j, s.provider.addressAt i = some addr → s.provider.addressAt j = some addr →
    i = j
  pooled : ∀ addr conn, s.provider.pool addr = some conn → s.provider.addressAt conn = some addr
  owned : ∀ call ∈ s.provider.calls, ∀ conn, call.Uses conn →
    s.provider.addressAt conn = some call.address
  made : ∀ conn < s.provider.conns.length, ∃ call ∈ s.provider.calls, call.Uses conn
  same : ∀ call ∈ s.provider.calls, ∀ conn, call.promise = .resolved conn →
    s.provider.pool call.address = some conn
  settled : ∀ call ∈ s.provider.calls, ∀ conn, call.promise = .pending conn → ¬s.Reported conn
  reported : ∀ conn, s.Reported conn → conn < s.provider.conns.length

namespace Driver.Inv

theorem loaded (h : s.Loaded) : s.Inv := by
  subst h
  constructor <;> simp [Provider.addressAt, Reported]

/-- What has been reported is in the pool. -/
theorem reported_pooled (h : s.Inv) {conn : Nat} {addr : String} (hreported : s.Reported conn)
    (haddr : s.provider.addressAt conn = some addr) : s.provider.pool addr = some conn := by
  obtain ⟨call, hcall, huses⟩ := h.made conn (h.reported conn hreported)
  have hcalladdr := h.owned call hcall conn huses
  rw [haddr, Option.some.injEq] at hcalladdr
  cases huses with
  | inl hpending => exact absurd hreported (h.settled call hcall conn hpending)
  | inr hresolved =>
    rw [hcalladdr]
    exact h.same call hcall conn hresolved

theorem shared (h : s.Inv) (addr : String) : s.Shared addr := by
  constructor
  · exact fun _ => h.unique addr
  · rintro call hcall rfl
    exact h.same call hcall
  · exact fun call hcall _ => h.settled call hcall

/-- One more call, that is answered at once. -/
theorem answer (h : s.Inv) {url database : String} {options : Options} {promise : Promise}
    (hpending : ∀ conn, promise ≠ .pending conn)
    (hresolved : ∀ conn, promise = .resolved conn →
      s.provider.pool (addressOf url database) = some conn) :
    Inv { s with provider := s.provider.answer url database options promise } := by
  constructor
  case unique => exact h.unique
  case pooled => exact h.pooled
  case owned =>
    intro call hcall conn huses
    obtain hold | rfl := Provider.mem_answer.mp hcall
    · exact h.owned call hold conn huses
    · obtain hpend | hres := huses
      · exact absurd hpend (hpending conn)
      · exact h.pooled _ _ (hresolved conn hres)
  case made =>
    intro conn hconn
    obtain ⟨call, hcall, huses⟩ := h.made conn hconn
    exact ⟨call, Provider.mem_answer.mpr (.inl hcall), huses⟩
  case same =>
    intro call hcall conn hres
    obtain hold | rfl := Provider.mem_answer.mp hcall
    · exact h.same call hold conn hres
    · exact hresolved conn hres
  case settled =>
    intro call hcall conn hpend
    obtain hold | rfl := Provider.mem_answer.mp hcall
    · exact h.settled call hold conn hpend
    · exact absurd hpend (hpending conn)
  case reported => exact h.reported

/-- The first call for an address makes a connection. -/
theorem connect (h : s.Inv) {url database : String} {options opts : Options}
    (hfirst : ∀ conn, s.provider.addressAt conn ≠ some (addressOf url database)) :
    Inv { s with
      provider := (s.provider.connect ⟨addressOf url database, opts⟩).answer url database options
        (.pending s.provider.conns.length) } := by
  have hlength := Provider.length_connect s.provider ⟨addressOf url database, opts⟩
  constructor
  case unique =>
    intro addr i j hi hj
    obtain hi | ⟨rfl, haddr⟩ := Provider.addressAt_connect.mp hi
    · obtain hj | ⟨rfl, haddr⟩ := Provider.addressAt_connect.mp hj
      · exact h.unique addr i j hi hj
      · exact absurd (hi.trans (congrArg some haddr.symm)) (hfirst i)
    · obtain hj | ⟨rfl, -⟩ := Provider.addressAt_connect.mp hj
      · exact absurd (hj.trans (congrArg some haddr.symm)) (hfirst j)
      · rfl
  case pooled =>
    intro addr conn hpool
    exact Provider.addressAt_connect.mpr (.inl (h.pooled addr conn hpool))
  case owned =>
    intro call hcall conn huses
    apply Provider.addressAt_connect.mpr
    obtain hold | rfl := Provider.mem_answer.mp hcall
    · exact .inl (h.owned call hold conn huses)
    · obtain hpend | hres := huses
      · exact .inr ⟨(Promise.pending.inj hpend).symm, rfl⟩
      · cases hres
  case made =>
    intro conn hconn
    replace hconn := Nat.lt_of_lt_of_eq hconn hlength
    by_cases hold : conn < s.provider.conns.length
    · obtain ⟨call, hcall, huses⟩ := h.made conn hold
      exact ⟨call, Provider.mem_answer.mpr (.inl hcall), huses⟩
    · have heq : s.provider.conns.length = conn := by omega
      exact ⟨_, Provider.mem_answer.mpr (.inr rfl), .inl (congrArg Promise.pending heq)⟩
  case same =>
    intro call hcall conn hres
    obtain hold | rfl := Provider.mem_answer.mp hcall
    · exact h.same call hold conn hres
    · cases hres
  case settled =>
    intro call hcall conn hpend hrep
    obtain hold | rfl := Provider.mem_answer.mp hcall
    · exact h.settled call hold conn hpend hrep
    · -- the driver cannot have reported on the new connection
      cases hpend
      exact absurd (h.reported _ hrep) (Nat.lt_irrefl _)
  case reported =>
    intro conn hrep
    have hlt := h.reported conn hrep
    exact Nat.lt_of_lt_of_eq (Nat.lt_succ_of_lt hlt) hlength.symm

/-- The connection is the only one for its address, so the pool gets no other one. -/
theorem opened (h : s.Inv) {conn : Nat} {c : Connection}
    (hc : s.provider.conns[conn]? = some c) :
    Inv { s with
      provider := { s.provider with
        pool := Function.update s.provider.pool c.address (some conn)
        calls := s.provider.calls.map (Call.settle conn) }
      opened := s.opened ++ [conn] } := by
  have haddr : s.provider.addressAt conn = some c.address := by
    rw [Provider.addressAt, hc]
    rfl
  -- a call for the address uses this connection, any other call another one
  have huses_conn : ∀ call ∈ s.provider.calls, ∀ k, call.Uses k →
      (call.address = c.address ↔ k = conn) := by
    intro call hcall k huses
    have hk := h.owned call hcall k huses
    constructor
    · intro heq
      exact h.unique c.address k conn (heq ▸ hk) haddr
    · rintro rfl
      rw [haddr, Option.some.injEq] at hk
      exact hk.symm
  constructor
  case unique => exact h.unique
  case pooled =>
    intro addr k hpool
    dsimp only at hpool
    by_cases heq : addr = c.address
    · subst heq
      rw [Function.update_self] at hpool
      cases hpool
      exact haddr
    · rw [Function.update_of_ne heq] at hpool
      exact h.pooled addr k hpool
  case owned =>
    intro call hcall k huses
    obtain ⟨call₀, hcall₀, rfl⟩ := List.mem_map.mp hcall
    rw [Call.settle_address]
    exact h.owned call₀ hcall₀ k (Call.uses_settle.mp huses)
  case made =>
    intro k hk
    obtain ⟨call, hcall, huses⟩ := h.made k hk
    exact ⟨_, List.mem_map_of_mem hcall, Call.uses_settle.mpr huses⟩
  case same =>
    intro call hcall k hres
    obtain ⟨call₀, hcall₀, rfl⟩ := List.mem_map.mp hcall
    have huses : call₀.Uses k := Call.uses_settle.mp (.inr hres)
    have hiff := huses_conn call₀ hcall₀ k huses
    dsimp only
    rw [Call.settle_address]
    by_cases heq : call₀.address = c.address
    · rw [heq, Function.update_self, hiff.mp heq]
    · rw [Function.update_of_ne heq]
      obtain hpend | hres₀ := huses
      · -- it waits for another connection, so it cannot have been settled
        exfalso
        have hne : k ≠ conn := fun hk => heq (hiff.mpr hk)
        rw [Call.settle_of_ne hpend hne, hpend] at hres
        cases hres
      · exact h.same call₀ hcall₀ k hres₀
  case settled =>
    intro call hcall k hpend hrep
    obtain ⟨call₀, hcall₀, rfl⟩ := List.mem_map.mp hcall
    obtain ⟨hpend₀, hne⟩ := Call.settle_pending hpend
    apply h.settled call₀ hcall₀ k hpend₀
    obtain hold | rfl := reported_opened.mp hrep
    · exact hold
    · exact absurd rfl hne
  case reported =>
    intro k hrep
    obtain hold | rfl := reported_opened.mp hrep
    · exact h.reported k hold
    · exact Provider.addressAt_lt haddr

/-- No call waits for a connection that fails. -/
theorem error (h : s.Inv) {conn : Nat} {console : List String}
    (hconn : conn < s.provider.conns.length)
    (hidle : ∀ call ∈ s.provider.calls, call.promise ≠ .pending conn) :
    Inv { s with failed := s.failed ++ [conn], console } := by
  constructor
  case unique => exact h.unique
  case pooled => exact h.pooled
  case owned => exact h.owned
  case made => exact h.made
  case same => exact h.same
  case settled =>
    intro call hcall k hpend hrep
    obtain hold | rfl := reported_failed.mp hrep
    · exact h.settled call hcall k hpend hold
    · exact hidle call hcall hpend
  case reported =>
    intro k hrep
    obtain hold | rfl := reported_failed.mp hrep
    · exact h.reported k hold
    · exact hconn

theorem step (h : s.Inv) (hcareful : s.Careful op) (hstep : s.step op = some s') : s'.Inv := by
  cases step_cases hstep with
  | pooled hpool => exact h.answer (fun _ => nofun) fun conn hres => by cases hres; exact hpool
  | thrown hpool => exact h.answer (fun _ => nofun) fun _ => nofun
  | connect hpool => exact h.connect (hcareful hpool rfl)
  | opened hc => exact h.opened hc
  | error hconn => exact h.error hconn hcareful

end Driver.Inv

/-- A step that is not careful shows at once: there is a second connection, or a call that waits for
    one that has failed. -/
theorem Driver.not_shared_step (h : s.Inv) (hcareful : ¬s.Careful op)
    (hstep : s.step op = some s') : ¬∀ addr, s'.Shared addr := by
  intro hshared
  cases step_cases hstep with
  | pooled hpool =>
    apply hcareful
    intro hnone
    rw [hpool] at hnone
    cases hnone
  | thrown hpool => exact hcareful fun _ hfalse => nomatch hfalse
  | @connect url database options hpool =>
    simp only [Careful, hpool, forall_const, not_forall, not_not] at hcareful
    obtain ⟨conn, haddr⟩ := hcareful
    have hlt := Provider.addressAt_lt haddr
    -- nothing has failed for the address, or the pool would not be empty
    have hnone : ∀ k ∈ s.failed, (s.provider.connect ⟨addressOf url database,
        assign defaultOptions options⟩).addressAt k ≠ some (addressOf url database) := by
      intro k hfailed hk
      obtain hold | ⟨rfl, -⟩ := Provider.addressAt_connect.mp hk
      · have hsome := h.reported_pooled (.inr hfailed) hold
        rw [hpool] at hsome
        cases hsome
      · exact absurd (h.reported _ (.inr hfailed)) (Nat.lt_irrefl _)
    have heq := (hshared (addressOf url database)).one hnone conn s.provider.conns.length
      (Provider.addressAt_connect.mpr (.inl haddr))
      (Provider.addressAt_connect.mpr (.inr ⟨rfl, rfl⟩))
    omega
  | opened hc => exact hcareful trivial
  | @error conn err hconn =>
    simp only [Careful, not_forall, not_not] at hcareful
    obtain ⟨call, hcall, hpend⟩ := hcareful
    apply (hshared call.address).settled call hcall rfl conn hpend
    exact .inr (List.mem_append_right _ (List.mem_singleton_self conn))

/-- In a run, with calls for any addresses and events in any order: for every address, at every
    moment, there is at most one connection as long as none has failed, all resolved calls have the
    pooled one, and no call waits for a connection that has been reported, exactly when no call
    makes a second connection for its address and no connection fails while a call waits for it. -/
theorem shared_iff_careful {s s' : Driver} {ops : List DriverOp} (hload : s.Loaded)
    (hrun : driverSystem.run s ops = some s') :
    driverSystem.Always (fun s => ∀ addr, s.Shared addr) s ops ↔
      driverSystem.EveryStep Driver.Careful s ops :=
  System.always_iff_everyStep (Driver.Inv.loaded hload) (fun _ hinv => hinv.shared)
    (fun _ _ _ hinv hcareful hstep => hinv.step hcareful hstep)
    (fun _ _ _ hinv hcareful hstep => Driver.not_shared_step hinv hcareful hstep) hrun

/-- A request for the timeline, whose connection opens. Then there is one with other credentials,
    and the connection fails. -/
theorem shared_iff_careful_request :
    driverSystem.Always (fun s => ∀ addr, s.Shared addr) ⟨⟨fun _ => none, [], []⟩, [], [], []⟩
      [.provider (getTimelineItemModel routeCreds), .provider (.opened 0),
        .provider (getTimelineItemModel seedCreds), .error 0 "connection closed"] := by
  refine (shared_iff_careful rfl rfl).mpr ?_
  refine .cons (fun _ _ _ => nofun) rfl (.cons trivial rfl (.cons nofun rfl (.cons ?_ rfl .nil)))
  -- when the connection fails, both calls have been resolved
  intro call hcall
  rcases hcall with _ | ⟨_, _ | ⟨_, ⟨⟩⟩⟩ <;> nofun

/-- Two requests before the first connection opens make two connections, and each gets its own. A
    request whose connection fails waits on, and a line on the console is all there is. -/
theorem overlapping_requests :
    ∃ s s', driverSystem.Reachable s ∧ driverSystem.Reachable s' ∧
      s.failed = [] ∧
      s.provider.conns.map Connection.address =
        [addressOf "mongo:27017" "hackersHallDemoDb",
          addressOf "mongo:27017" "hackersHallDemoDb"] ∧
      s.provider.calls.map Call.promise = [.resolved 0, .resolved 1] ∧
      ¬s.Shared (addressOf "mongo:27017" "hackersHallDemoDb") ∧
      s'.failed = [0] ∧ s'.provider.calls.map Call.promise = [.pending 0] ∧
      s'.console = ["MongoDB error: connect ECONNREFUSED"] ∧
      ¬s'.Shared (addressOf "mongo:27017" "hackersHallDemoDb") := by
  have hinit : driverSystem.Reachable ⟨⟨fun _ => none, [], []⟩, [], [], []⟩ := .init rfl
  have hboth := hinit.run [.provider (getTimelineItemModel routeCreds),
    .provider (getTimelineItemModel routeCreds), .provider (.opened 0), .provider (.opened 1)] rfl
  have herror := hinit.run [.provider (getTimelineItemModel routeCreds),
    .error 0 "connect ECONNREFUSED"] rfl
  refine ⟨_, _, hboth, herror, rfl, rfl, rfl, fun hshared => ?_, rfl, rfl, rfl, fun hshared => ?_⟩
  · have heq := hshared.one (by simp) 0 1 rfl rfl
    cases heq
  · apply hshared.settled _ List.mem_cons_self rfl 0 rfl
    exact .inr List.mem_cons_self

/-! ## Errors -/

/-- An error changes nothing in the provider, so what holds in its runs holds in those with
    errors. -/
theorem Driver.provider_reachable (h : driverSystem.Reachable s) :
    providerSystem.Reachable s.provider := by
  apply h.simulation Driver.provider
  · rintro s rfl
    rfl
  · intro s op s' _ _ hstep
    cases op with
    | error conn err =>
      have hmoves : s.Moves (.error conn err) s' := Driver.step_cases hstep
      cases hmoves
      exact .inl rfl
    | provider op =>
      obtain ⟨provider, hprovider, rfl⟩ := Option.map_eq_some_iff.mp hstep
      exact .inr ⟨op, hprovider⟩

theorem Driver.pending_step {conn i : Nat} {call : Call}
    (hcall : s.provider.calls[i]? = some call) (hpend : call.promise = .pending conn)
    (hop : op ≠ .provider (.opened conn)) (hstep : s.step op = some s') :
    s'.provider.calls[i]? = some call := by
  cases Driver.step_cases hstep with
  | pooled | thrown | connect => exact List.getElem?_concat_of_some hcall
  | @opened k =>
    have hne : conn ≠ k := fun heq => hop (heq ▸ rfl)
    show (s.provider.calls.map (Call.settle k))[i]? = some call
    rw [List.getElem?_map, hcall, Option.map_some, Call.settle_of_ne hpend hne]
  | error => exact hcall

/-- A call waits until its connection opens: no error, and no call that comes after it, ends the
    wait. -/
theorem Driver.pending_stays {ops : List DriverOp} {conn i : Nat} {call : Call}
    (hcall : s.provider.calls[i]? = some call) (hpend : call.promise = .pending conn)
    (hops : .provider (.opened conn) ∉ ops) (hrun : driverSystem.run s ops = some s') :
    s'.provider.calls[i]? = some call := by
  induction ops generalizing s with
  | nil =>
    cases hrun
    exact hcall
  | cons op ops ih =>
    obtain ⟨s₁, hstep, hrest⟩ := Option.bind_eq_some_iff.mp hrun
    rw [List.mem_cons, not_or] at hops
    exact ih (Driver.pending_step hcall hpend (Ne.symm hops.1) hstep) hops.2 hrest

end ConnectionProvider
