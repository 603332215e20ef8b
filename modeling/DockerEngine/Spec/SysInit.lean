import DockerEngine.Native.SysInit

/-!
# The command line of lxc-start and `SysInit` are inverse

`Start` writes gateway, user, program and arguments into one list of strings and
`SysInit` reads them back in another process. The program's own words may look like
flags or like the separator: they stand behind the second separator, and the words in
front of the first one are never `--`.

- `containerId_ne_dashDash`: the ids of `CreateContainer` are no separator
- `sysInit_params`: gateway, user, program and arguments arrive as they were sent
-/

namespace Docker

open Go

/-! ## The words in front of the first separator -/

/-- The ids given by `CreateContainer` have hexadecimal digits only. -/
theorem containerId_ne_dashDash (sum : Vector UInt8 32) : containerId sum ≠ dashDash := by
  intro h
  have hmem : dash ∈ randomId sum := by
    apply List.mem_of_mem_take (i := 8)
    rw [show (randomId sum).take 8 = dashDash from h]
    exact List.mem_cons_self
  exact absurd (le_of_mem_randomId hmem) (by decide)

theorem config_lxc_plain : PlainName (str "config.lxc") :=
  ⟨by decide, by decide, by decide, by decide⟩

/-- A path that ends in `config.lxc` is longer than the separator. -/
theorem lxcConfigPath_ne_dashDash (id root command : GoString) (args : List GoString)
    (config : Config) :
    (createContainer id root command args config).lxcConfigPath ≠ dashDash := by
  intro h
  obtain ⟨pre, hpre⟩ := pathJoin_child root
  have hlen := congrArg List.length ((hpre _ config_lxc_plain).symm.trans h)
  have hname : (str "config.lxc").length = 10 := by decide
  have hsep : dashDash.length = 2 := by decide
  rw [List.length_append, hname, hsep] at hlen
  omega

/-! ## Reading the flags back -/

/-- One of the two string flags, with any text as its value. -/
theorem sysInitFlags_parse {c : UInt8} (hc : [c] = str "g" ∨ [c] = str "u") (value : GoString)
    (args : List GoString) :
    sysInitFlags.parse ([dash, c] :: value :: args) =
      (sysInitFlags.parse args).map (.cons [c] value) := by
  have hdash : c ≠ dash := by
    rcases hc with hc | hc <;> cases hc <;> decide
  have hequals : c ≠ equals := by
    rcases hc with hc | hc <;> cases hc <;> decide
  have hflag : sysInitFlags [c] = some Flag.string := if_pos hc.symm
  exact parse_value sysInitFlags hdash hequals hflag rfl rfl args

/-- What `SysInit` finds on the command line of `/sbin/init`. -/
theorem sysInitFlags_params (gateway user path : GoString) (args : List GoString) :
    ∃ flags, sysInitFlags.parse ([str "-g", gateway] ++ (if user ≠ [] then [str "-u", user] else [])
        ++ [str "--", path] ++ args) = .ok flags ∧
      flags.value (str "g") [] = gateway ∧ flags.value (str "u") [] = user ∧
      flags.args = path :: args := by
  have hterm : sysInitFlags.parse ([str "--", path] ++ args) = .ok ⟨[], path :: args⟩ :=
    parse_terminator sysInitFlags (path :: args)
  have hg : ∀ rest, sysInitFlags.parse (str "-g" :: gateway :: rest) =
      (sysInitFlags.parse rest).map (.cons (str "g") gateway) :=
    sysInitFlags_parse (.inl rfl) gateway
  have hu : ∀ rest, sysInitFlags.parse (str "-u" :: user :: rest) =
      (sysInitFlags.parse rest).map (.cons (str "u") user) :=
    sysInitFlags_parse (.inr rfl) user
  by_cases huser : user = []
  · -- no `-u`: the flag keeps its default
    subst huser
    rw [if_neg (by simp), List.append_nil, List.append_assoc, List.cons_append, List.cons_append,
      List.nil_append, hg, hterm]
    exact ⟨_, rfl, rfl, rfl, rfl⟩
  · rw [if_pos huser]
    simp only [List.cons_append, List.nil_append]
    have hterm' : sysInitFlags.parse (str "--" :: path :: args) = .ok ⟨[], path :: args⟩ := hterm
    rw [hg, hu, hterm']
    exact ⟨_, rfl, rfl, rfl, rfl⟩

/-! ## The round trip -/

/-- Let lxc-start run everything after its first `--` as the command line of `/sbin/init`.
    Then `SysInit` sets up the gateway and the user of the container and executes its path
    with the path and its arguments, whatever these strings are. -/
theorem sysInit_params {lxcStart : List GoString → List GoString}
    (hlxc : ∀ before after, dashDash ∉ before → lxcStart (before ++ dashDash :: after) = after)
    {id : GoString} (hid : id ≠ dashDash) (root command : GoString) (args : List GoString)
    (config : Config) (gateway : GoString) :
    sysInit (lxcStart ((createContainer id root command args config).params gateway)) =
      .ok [.setupNetworking gateway, .changeUser config.user, .setupEnv,
        .executeProgram command (command :: args)] := by
  have hpath := lxcConfigPath_ne_dashDash id root command args config
  generalize hc : createContainer id root command args config = container at hpath ⊢
  have hcmd : container.path = command ∧ container.args = args ∧ container.config = config ∧
      container.id = id := by
    subst hc
    exact ⟨rfl, rfl, rfl, rfl⟩
  obtain ⟨hcommand, hargs, hconfig, hcid⟩ := hcmd
  have hbefore : dashDash ∉ [str "-n", container.id, str "-f", container.lxcConfigPath] := by
    have hn : dashDash ≠ str "-n" := by decide
    have hf : dashDash ≠ str "-f" := by decide
    rw [hcid]
    simp [hn, hf, hid.symm, hpath.symm]
  -- everything from `/sbin/init` on stands behind the first separator
  have hsplit : container.params gateway =
      [str "-n", container.id, str "-f", container.lxcConfigPath] ++ dashDash ::
        (str "/sbin/init" :: ([str "-g", gateway] ++
          (if config.user ≠ [] then [str "-u", config.user] else []) ++
          [str "--", command] ++ args)) := by
    rw [Container.params, hcommand, hargs, hconfig]
    simp only [List.append_assoc, List.cons_append, List.nil_append]
    rfl
  obtain ⟨flags, hparse, hgw, hu, hrest⟩ := sysInitFlags_params gateway config.user command args
  rw [hsplit, hlxc _ _ hbefore, sysInit, if_neg (by simp), List.tail_cons, hparse]
  simp only [hgw, hu, Parsed.arg, hrest]
  rfl

/-- A container whose user, program and arguments all look like flags or separators. -/
theorem sysInit_params_dashes :
    sysInit (((createContainer (containerId (.replicate 32 0)) (str "/var/lib/docker/containers/0")
        (str "--") [str "-u", str "--", [], str "-g=x"]
        ⟨[], str "-g", [], false, false⟩).params (str "--")).dropWhile (· ≠ dashDash)).tail =
      .ok [.setupNetworking (str "--"), .changeUser (str "-g"), .setupEnv,
        .executeProgram (str "--") [str "--", str "-u", str "--", [], str "-g=x"]] := by
  apply @sysInit_params fun argv => (argv.dropWhile (· ≠ dashDash)).tail
  · intro before after h
    have hall : ∀ arg ∈ before, decide (arg ≠ dashDash) = true := by
      intro arg harg
      exact decide_eq_true (fun e => h (e ▸ harg))
    rw [List.dropWhile_append_of_pos hall]
    simp
  · exact containerId_ne_dashDash _

end Docker
