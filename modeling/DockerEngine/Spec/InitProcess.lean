import DockerEngine.Native.InitProcess
import DockerEngine.Spec.Run

/-!
# A program runs as the user that was asked for, or not at all

`changeUser` sets the group ids while the process is still root, and then the user ids, which
gives the privilege up. It leaves the supplementary groups, and a set-user-ID program gets the
effective id of its owner back.

- `Credentials.keeps`: a process that is not root keeps its ids and groups, whatever it calls
- `runs_as`: how the first process of a container ends
-/

namespace Docker

open Go

namespace Credentials

variable {c : Credentials} {uid gid : Nat} {groups : List Nat} {n : Int}

/-! ## The ids -/

/-- Root sets all its group ids and stays root. -/
theorem setgid_root (h : (user 0 0 groups).setgid n = some c) :
    ∃ id, kernelId n = some id ∧ c = user 0 id groups := by
  obtain ⟨id, hid, h⟩ := Option.bind_eq_some_iff.mp h
  cases h
  exact ⟨id, hid, rfl⟩

/-- Root sets all its user ids. -/
theorem setuid_root (h : (user 0 gid groups).setuid n = some c) :
    ∃ id, kernelId n = some id ∧ c = user id gid groups := by
  obtain ⟨id, hid, h⟩ := Option.bind_eq_some_iff.mp h
  cases h
  exact ⟨id, hid, rfl⟩

theorem exec_ordinary (uid gid : Nat) (groups : List Nat) :
    (user uid gid groups).exec .ordinary = user uid gid groups := rfl

/-- Without privilege, the ids that are all the same are set to themselves or not at all. -/
theorem set_all {own id : Nat} {ids : Ids} (h : (Ids.all own).set false id = some ids) :
    ids = .all own := by
  rw [Ids.set, if_neg Bool.false_ne_true] at h
  split at h
  · next hid =>
    cases h
    have hown : id = own := hid.elim (fun h => h) fun h => h
    rw [hown]
    rfl
  · cases h

theorem apply_user (huid : uid ≠ 0) (call : IdCall) :
    call.apply (user uid gid groups) = user uid gid groups := by
  have hunprivileged : maySetuid (user uid gid groups) = false := by
    rw [maySetuid, Bool.or_eq_false_iff]
    exact ⟨decide_eq_false huid, rfl⟩
  have hunprivileged' : maySetgid (user uid gid groups) = false := hunprivileged
  cases call with
  | setuid n =>
    rw [IdCall.apply]
    cases hset : setuid (user uid gid groups) n with
    | none => rfl
    | some c =>
      obtain ⟨id, -, hmap⟩ := Option.bind_eq_some_iff.mp hset
      obtain ⟨ids, hids, rfl⟩ := Option.map_eq_some_iff.mp hmap
      rw [hunprivileged] at hids
      rw [set_all hids]
      rfl
  | setgid n =>
    rw [IdCall.apply]
    cases hset : setgid (user uid gid groups) n with
    | none => rfl
    | some c =>
      obtain ⟨id, -, hmap⟩ := Option.bind_eq_some_iff.mp hset
      obtain ⟨ids, hids, rfl⟩ := Option.map_eq_some_iff.mp hmap
      rw [hunprivileged'] at hids
      rw [set_all hids]
      rfl
  | setgroups gs =>
    rw [IdCall.apply, setgroups, hunprivileged', if_neg Bool.false_ne_true]
    rfl

/-- A process all of whose ids are those of another user than root keeps them, and its groups. -/
theorem keeps (huid : uid ≠ 0) (calls : List IdCall) :
    calls.foldl IdCall.apply (user uid gid groups) = user uid gid groups := by
  induction calls with
  | nil => rfl
  | cons call calls ih => rw [List.foldl_cons, apply_user huid, ih]

end Credentials

namespace InitProcess

variable {p p' : InitProcess} {w : Surroundings} {groups : List Nat}

/-! ## The calls of `SysInit` -/

/-- The ids that a user is to have. -/
def IdsOf (w : Surroundings) (u : GoString) (uid gid : Nat) : Prop :=
  ∃ ent n m, userEnt w u = some ent ∧ atoi ent.uid = some n ∧ atoi ent.gid = some m ∧
    kernelId n = some uid ∧ kernelId m = some gid

/-- What `changeUser` does to a process of root, if it does not end it. -/
theorem changeUser_ok {u : GoString} (hroot : p.credentials = .user 0 0 groups)
    (h : p.changeUser w u = .ok p') :
    (u = [] ∧ p' = p) ∨ (u ≠ [] ∧ ∃ uid gid, IdsOf w u uid gid ∧
      p' = { p with credentials := .user uid gid groups }) := by
  unfold changeUser at h
  rw [hroot] at h
  split at h
  · next hu =>
    cases h
    exact .inl ⟨hu, rfl⟩
  next hu =>
  split at h
  · cases h
  next ent hent =>
  split at h
  · next n m hn hm =>
    split at h
    · next _ c hsetgid =>
      obtain ⟨gid, hgid, rfl⟩ := Credentials.setgid_root hsetgid
      split at h
      · next _ c hsetuid =>
        obtain ⟨uid, huid, rfl⟩ := Credentials.setuid_root hsetuid
        cases h
        exact .inr ⟨hu, uid, gid, ⟨ent, n, m, hent, hn, hm, huid, hgid⟩, rfl⟩
      · cases h
    · cases h
  · cases h

/-- A call that ends the process does so with code 1. -/
theorem changeUser_error {u : GoString} {code : Nat} (h : p.changeUser w u = .error code) :
    code = 1 := by
  unfold changeUser at h
  repeat' split at h
  all_goals cases h
  all_goals rfl

theorem setupNetworking_cases (p : InitProcess) (w : Surroundings) (gw : GoString) :
    p.setupNetworking w gw = .error 1 ∨
      ∃ gateway, p.setupNetworking w gw = .ok { p with gateway } := by
  unfold setupNetworking
  split
  · exact .inr ⟨p.gateway, rfl⟩
  · split
    · exact .inl rfl
    · exact .inr ⟨some gw, rfl⟩

/-- A process that executes the program, or one that has ended with an error before. -/
theorem executeProgram_cases (p : InitProcess) (w : Surroundings) (name : GoString)
    (args : List GoString) :
    (∃ path, lookPath w name = some path ∧ p.executeProgram w name args =
        .executed path args { p with credentials := p.credentials.exec (w.fileIds path) }) ∨
      ∃ code, p.executeProgram w name args = .exited code ∧ code ≠ 0 := by
  unfold executeProgram
  split
  · exact .inr ⟨127, rfl, by decide⟩
  · next path hpath =>
    split
    · exact .inr ⟨2, rfl, by decide⟩
    · exact .inl ⟨path, hpath, rfl⟩

end InitProcess

/-- The command of a container that `CmdRun` makes is executed with its arguments and in the
    environment of `setupEnv`, from the place where `LookPath` finds it. Its real ids are those of
    the user that was asked for, or of root without a user; the effective and the saved ones too,
    but for what its file gives it, and the supplementary groups are still those of the first
    process. With an ordinary file and another user than root it cannot change them. Otherwise the
    container ends with a code other than zero. -/
theorem runs_as {lxcStart : List GoString → List GoString}
    (hlxc : ∀ before after, dashDash ∉ before → lxcStart (before ++ dashDash :: after) = after)
    (repository : GoString) (sum : Vector UInt8 32) (r : RunRequest) (gateway : GoString)
    (w : Surroundings) (env : List (GoString × GoString)) (groups : List Nat) :
    (∃ path p, InitProcess.sysInit w env groups
          (lxcStart ((runContainer repository sum r).params gateway)) =
        .executed path (r.command :: r.args) p ∧
      InitProcess.lookPath w r.command = some path ∧
      p.env = [(str "HOME", str "/"), (str "PATH", join (str ":") InitProcess.searchPath)] ∧
      ∃ uid gid,
        ((r.user = [] ∧ uid = 0 ∧ gid = 0) ∨
          (r.user ≠ [] ∧ InitProcess.IdsOf w r.user uid gid)) ∧
        p.credentials = (Credentials.user uid gid groups).exec (w.fileIds path) ∧
        (w.fileIds path = .ordinary → uid ≠ 0 → ∀ calls : List IdCall,
          calls.foldl IdCall.apply p.credentials = .user uid gid groups)) ∨
    ∃ code, InitProcess.sysInit w env groups
        (lxcStart ((runContainer repository sum r).params gateway)) = .exited code ∧ code ≠ 0 := by
  have hpath := lxcConfigPath_ne_dashDash (containerId sum)
    (pathJoin [repository, containerId sum]) r.command r.args
    ⟨containerId sum, r.user, r.ports, r.tty, r.stdin⟩
  have hcalls := sysInit_container hlxc (runContainer repository sum r)
    (containerId_ne_dashDash sum) hpath gateway
  rw [InitProcess.sysInit, hcalls]
  simp only [InitProcess.perform]
  obtain hnet | ⟨gw, hnet⟩ :=
    InitProcess.setupNetworking_cases ⟨.user 0 0 groups, env, none⟩ w gateway
  · rw [hnet]
    exact .inr ⟨1, rfl, by decide⟩
  · rw [hnet]
    simp only
    split
    · next code hcode =>
      rw [InitProcess.changeUser_error hcode]
      exact .inr ⟨1, rfl, by decide⟩
    · next p hp =>
      obtain ⟨path, hfound, hend⟩ | hend :=
        InitProcess.executeProgram_cases p.setupEnv w r.command (r.command :: r.args)
      · have hkeeps : ∀ uid gid, w.fileIds path = .ordinary → uid ≠ 0 → ∀ calls : List IdCall,
            calls.foldl IdCall.apply
              ((Credentials.user uid gid groups).exec (w.fileIds path)) =
                .user uid gid groups := by
          intro uid gid hordinary huid calls
          rw [hordinary, Credentials.exec_ordinary]
          exact Credentials.keeps huid calls
        refine .inl ⟨path, _, hend, hfound, rfl, ?_⟩
        obtain ⟨hu, rfl⟩ | ⟨hu, uid, gid, hids, rfl⟩ := InitProcess.changeUser_ok rfl hp
        · exact ⟨0, 0, .inl ⟨hu, rfl, rfl⟩, rfl, hkeeps 0 0⟩
        · exact ⟨uid, gid, .inr ⟨hu, hids⟩, rfl, hkeeps uid gid⟩
      · exact .inr hend

/-- The container has one user, one program like most and one that belongs to root. -/
def oneUser : Surroundings where
  routeErr := none
  lookupId := fun _ => none
  lookup := fun u => if u = str "www" then some ⟨str "33", str "100"⟩ else none
  setgidErr := none
  setuidErr := none
  executable := fun path => path = str "/usr/bin/id" ∨ path = str "/bin/su"
  fileIds := fun path => if path = str "/bin/su" then ⟨some 0, none, false, false⟩ else .ordinary
  execErr := none

/-- `docker run -u www base id`. -/
def idRequest : RunRequest :=
  ⟨str "www", false, false, false, [], 0, [], str "base", str "id", []⟩

theorem runs_as_www :
    ∃ p, InitProcess.sysInit oneUser [] [4]
        (((runContainer (str "/c") (.replicate 32 0) idRequest).params
          (str "10.0.3.1")).dropWhile (· ≠ dashDash)).tail =
        .executed (str "/usr/bin/id") [str "id"] p ∧
      ∀ calls : List IdCall, calls.foldl IdCall.apply p.credentials = .user 33 100 [4] := by
  obtain ⟨path, p, hend, hfound, -, uid, gid, hids, -, hkeeps⟩ | ⟨code, hend, -⟩ :=
    @runs_as (fun argv => (argv.dropWhile (· ≠ dashDash)).tail)
      (fun _ after h => tail_dropWhile h after) (str "/c") (.replicate 32 0) idRequest
      (str "10.0.3.1") oneUser [] [4]
  · cases hfound
    refine ⟨p, hend, ?_⟩
    obtain ⟨hnone, -⟩ | ⟨-, ent, n, m, hent, hn, hm, huid, hgid⟩ := hids
    · cases hnone
    · cases hent
      cases hn
      cases hm
      cases huid
      cases hgid
      exact fun calls => hkeeps rfl (by decide) calls
  · cases hend

/-- A program of root gives its ids back. -/
example :
    ∃ path argv p, InitProcess.sysInit oneUser [] [4]
        (((runContainer (str "/c") (.replicate 32 0) { idRequest with command := str "su" }).params
          (str "10.0.3.1")).dropWhile (· ≠ dashDash)).tail = .executed path argv p ∧
      p.credentials.uid = ⟨33, 0, 0⟩ := ⟨_, _, _, rfl, rfl⟩

end Docker
