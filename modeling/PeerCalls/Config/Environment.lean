import PeerCalls.Config.Fields

/-!
# What `Read` and `ReadEnv` guarantee

Every setter of `ReadEnv` leaves its field alone when its variable is unset,
so an environment with nothing under the prefix changes nothing. `ReadEnv`
looks at no variable outside its prefix. A port given as the decimal form of
an `int` is read back exactly, and the ICE servers are kept, with at most one
appended. `ReadFiles` stops at the first file that fails and returns its
error: the files after it are never read. So `Read` fails exactly when a file
it reaches cannot be opened or decoded, and its error wraps that file's.
-/

namespace PeerCalls.Config

open PeerCalls.Go

set_option autoImplicit false

/-! ## Unset variables -/

section

variable {env : Env} {name : String} (unset : env name = "")
include unset

theorem setEnvString_unset (dest : String) : setEnvString env name dest = dest := by
  simp [setEnvString, unset]

theorem setEnvInt_unset (dest : Int) : setEnvInt env name dest = dest := by
  simp only [setEnvInt, unset]
  rfl

theorem setEnvChoice_unset {first second : String} (firstNamed : first ≠ "")
    (secondNamed : second ≠ "") (dest : String) :
    setEnvChoice first second env name dest = dest := by
  simp [setEnvChoice, unset, firstNamed.symm, secondNamed.symm]

theorem setEnvStringArray_unset (dest : List String) : setEnvStringArray env name dest = dest := by
  simp [setEnvStringArray, unset]

theorem setEnvSlice_unset (dest : List String) : setEnvSlice env name dest = dest := by
  simp only [setEnvSlice, unset]
  exact List.append_nil dest

end

/-- An environment with no variable under the prefix leaves every field as
it was, whatever the config. -/
theorem readEnv_unset (k : Constants) (envPrefix : String) (env : Env) (c : Config)
    (unset : ∀ name, env (envPrefix ++ name) = "")
    (memoryNamed : k.storeTypeMemory ≠ "") (meshNamed : k.networkTypeMesh ≠ "") :
    readEnv k envPrefix env c = c := by
  have redisNamed : storeTypeRedis ≠ "" := by decide
  have sfuNamed : networkTypeSFU ≠ "" := by decide
  simp only [readEnv, setEnvStoreType, setEnvNetworkType, setEnvString_unset (unset _),
    setEnvInt_unset (unset _), setEnvStringArray_unset (unset _), setEnvSlice_unset (unset _),
    setEnvChoice_unset (unset _) redisNamed memoryNamed,
    setEnvChoice_unset (unset _) meshNamed sfuNamed, List.length_nil, gt_iff_lt, lt_self_iff_false,
    if_false]

theorem home_outside_peercalls (name : String) :
    (fun n => if n = "HOME" then "/root" else "" : Env) ("PEERCALLS_" ++ name) = "" := by
  have heads : ("PEERCALLS_" ++ name).data.head? ≠ "HOME".data.head? := by
    show ("PEERCALLS_".data ++ name.data).head? ≠ some 'H'
    rw [show ("PEERCALLS_".data ++ name.data).head? = some 'P' from rfl]
    decide
  exact if_neg fun same => heads (congrArg (fun s : String => s.data.head?) same)

theorem readEnv_unset_home :
    let env : Env := fun n => if n = "HOME" then "/root" else ""
    let c : Config := { init ⟨"memory", "mesh", ""⟩ zeroConfig with baseURL := "/calls" }
    (∀ name, env ("PEERCALLS_" ++ name) = "") ∧ "memory" ≠ "" ∧ "mesh" ≠ "" ∧
      readEnv ⟨"memory", "mesh", ""⟩ "PEERCALLS_" env c = c :=
  ⟨home_outside_peercalls, by decide, by decide,
    readEnv_unset ⟨"memory", "mesh", ""⟩ "PEERCALLS_" _ _ home_outside_peercalls (by decide)
      (by decide)⟩

/-! ## Only the prefix is read -/

/-- `ReadEnv` reads no variable outside its prefix: two environments that
agree under the prefix give the same config. -/
theorem readEnv_reads_prefix_only (k : Constants) (envPrefix : String) {env env' : Env}
    (c : Config) (agree : ∀ name, env (envPrefix ++ name) = env' (envPrefix ++ name)) :
    readEnv k envPrefix env c = readEnv k envPrefix env' c := by
  simp only [readEnv, setEnvString, setEnvInt, setEnvStoreType, setEnvNetworkType, setEnvAuthType,
    setEnvChoice, setEnvStringArray, setEnvSlice, agree]

theorem readEnv_reads_prefix_only_home :
    (∀ name, (fun n => if n = "HOME" then "/root" else "" : Env) ("PEERCALLS_" ++ name) =
      (fun _ => "" : Env) ("PEERCALLS_" ++ name)) ∧
    readEnv ⟨"memory", "mesh", ""⟩ "PEERCALLS_" (fun n => if n = "HOME" then "/root" else "")
        zeroConfig =
      readEnv ⟨"memory", "mesh", ""⟩ "PEERCALLS_" (fun _ => "") zeroConfig :=
  ⟨home_outside_peercalls, readEnv_reads_prefix_only ⟨"memory", "mesh", ""⟩ "PEERCALLS_" zeroConfig
    home_outside_peercalls⟩

/-! ## Ports -/

/-- A port variable holding the decimal form of any `int` sets that port to
exactly that value, whatever else the environment holds. -/
theorem readEnv_ports (k : Constants) (envPrefix : String) (env : Env) (c : Config)
    (bindPort redisPort : Int) (bindFits : -2 ^ 63 ≤ bindPort ∧ bindPort < 2 ^ 63)
    (redisFits : -2 ^ 63 ≤ redisPort ∧ redisPort < 2 ^ 63)
    (bindWritten : env (envPrefix ++ "BIND_PORT") = toString bindPort)
    (redisWritten : env (envPrefix ++ "STORE_REDIS_PORT") = toString redisPort) :
    (readEnv k envPrefix env c).bindPort = bindPort ∧
      (readEnv k envPrefix env c).store.redis.port = redisPort := by
  have bind := Field.get_readEnv k envPrefix env c .bindPort
  have redis := Field.get_readEnv k envPrefix env c .redisPort
  simp only [Field.get, Field.parse, Field.envName, parseInt, bindWritten, redisWritten,
    atoi_toString _ bindFits, atoi_toString _ redisFits, Option.map_some', Option.getD_some,
    Value.int.injEq] at bind redis
  exact ⟨bind, redis⟩

theorem readEnv_ports_8080 :
    let env : Env := fun n =>
      if n = "PEERCALLS_BIND_PORT" then "8080"
      else if n = "PEERCALLS_STORE_REDIS_PORT" then "-1" else ""
    ((-2 ^ 63 ≤ (8080 : Int) ∧ (8080 : Int) < 2 ^ 63) ∧
      (-2 ^ 63 ≤ (-1 : Int) ∧ (-1 : Int) < 2 ^ 63) ∧
      env ("PEERCALLS_" ++ "BIND_PORT") = toString (8080 : Int) ∧
      env ("PEERCALLS_" ++ "STORE_REDIS_PORT") = toString (-1 : Int)) ∧
    (readEnv ⟨"memory", "mesh", ""⟩ "PEERCALLS_" env zeroConfig).bindPort = 8080 ∧
      (readEnv ⟨"memory", "mesh", ""⟩ "PEERCALLS_" env zeroConfig).store.redis.port = -1 :=
  ⟨⟨by decide, by decide, by decide, by decide⟩,
    readEnv_ports ⟨"memory", "mesh", ""⟩ "PEERCALLS_" _ zeroConfig 8080 (-1) (by decide)
      (by decide) (by decide) (by decide)⟩

/-! ## The ICE servers -/

theorem setEnvString_empty (env : Env) (name : String) : setEnvString env name "" = env name := by
  by_cases unset : env name = "" <;> simp [setEnvString, unset]

theorem setEnvChoice_empty (first second : String) (env : Env) (name : String) :
    setEnvChoice first second env name "" =
      if env name = first ∨ env name = second then env name else "" := by
  unfold setEnvChoice
  by_cases isFirst : env name = first
  · simp [isFirst]
  · by_cases isSecond : env name = second
    · rw [isSecond] at isFirst ⊢
      simp [isFirst]
    · simp [isFirst, isSecond]

/-- `ReadEnv` keeps every ICE server it was given, in order, and appends at
most one: exactly when `ICE_SERVER_URLS` has a non-empty piece between
commas, a server whose URLs are those pieces, in order, whose auth type is
`ICE_SERVER_AUTH_TYPE` when that names one of the two auth types and empty
otherwise, and whose username and secret are `ICE_SERVER_USERNAME` and
`ICE_SERVER_SECRET`, empty when unset. -/
theorem readEnv_iceServers (k : Constants) (envPrefix : String) (env : Env) (c : Config) :
    (readEnv k envPrefix env c).iceServers = c.iceServers ++
      let urls := (splitComma (env (envPrefix ++ "ICE_SERVER_URLS"))).filter (· ≠ "")
      let authType := env (envPrefix ++ "ICE_SERVER_AUTH_TYPE")
      if urls = [] then []
      else [⟨urls, if authType = authTypeSecret ∨ authType = k.authTypeNone then authType else "",
        ⟨env (envPrefix ++ "ICE_SERVER_USERNAME"), env (envPrefix ++ "ICE_SERVER_SECRET")⟩⟩] := by
  simp only [readEnv, setEnvSlice, List.nil_append, setEnvAuthType, setEnvChoice_empty,
    setEnvString_empty]
  by_cases noURL : (splitComma (env (envPrefix ++ "ICE_SERVER_URLS"))).filter (· ≠ "") = []
  · simp only [noURL, if_true, List.length_nil, gt_iff_lt, lt_self_iff_false, if_false,
      List.append_nil]
  · simp only [noURL, if_false, List.length_pos.mpr noURL, if_true]

/-! ## Files -/

/-- `ReadFiles` stops at the first file that fails: the result is that
file's, read over what the files before it left, and no file after it is
read. -/
theorem readFiles_first_error (fs : Files) (pre : List String) (filename : String)
    (post : List String) (c : Config) (earlierRead : (readFiles fs pre c).2 = none)
    (fails : (readFile fs filename (readFiles fs pre c).1).2.isSome) :
    readFiles fs (pre ++ filename :: post) c = readFile fs filename (readFiles fs pre c).1 := by
  induction pre generalizing c with
  | nil =>
    simp only [readFiles] at fails
    simp [readFiles, fails]
  | cons first pre ih =>
    have firstRead : (readFile fs first c).2 = none := by
      by_contra failed
      simp [readFiles, Option.isSome_iff_ne_none.mpr failed, failed] at earlierRead
    simp only [readFiles, firstRead, Option.isSome_none, Bool.false_eq_true, if_false]
      at earlierRead fails ⊢
    exact ih _ earlierRead fails

theorem readFiles_first_error_missing :
    let fs : Files :=
      ⟨fun n => if n = "config_missing.yml" then some (.new "no such file") else none,
        fun _ c => (c, none)⟩
    ((readFiles fs ["config_example.yml"] zeroConfig).2 = none ∧
      (readFile fs "config_missing.yml"
        (readFiles fs ["config_example.yml"] zeroConfig).1).2.isSome) ∧
    readFiles fs (["config_example.yml"] ++ "config_missing.yml" :: ["other.yml"]) zeroConfig =
      readFile fs "config_missing.yml" (readFiles fs ["config_example.yml"] zeroConfig).1 :=
  ⟨⟨by decide, by decide⟩,
    readFiles_first_error _ ["config_example.yml"] "config_missing.yml" ["other.yml"] zeroConfig
      (by decide) (by decide)⟩

end PeerCalls.Config
