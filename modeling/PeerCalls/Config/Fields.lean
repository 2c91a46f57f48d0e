import PeerCalls.Config.Read

/-!
# `ReadEnv` field by field

What `ReadEnv` is for, said once per field: each scalar field of `Config`
has its own variable under the prefix, and a value of that variable which
the field accepts replaces it; any other value, and an unset variable,
leaves it alone. The table below is that statement: `Field.envName` names
the variable and `Field.parse` says what the field accepts. The ICE servers
are the one exception, as the `ICE_SERVER_*` variables together add at most
one server (`readEnv_iceServers`). `readEnv_fields` proves that `ReadEnv` is
the table, with no two fields sharing a variable.
-/

namespace PeerCalls.Config

open PeerCalls.Go

set_option autoImplicit false

/-- The fields `ReadEnv` sets from one variable each. -/
inductive Field where
  | baseURL
  | bindHost
  | bindPort
  | tlsCert
  | tlsKey
  | storeType
  | redisHost
  | redisPort
  | redisPrefix
  | networkType
  | sfuInterfaces
deriving Repr, DecidableEq

def Field.all : List Field :=
  [.baseURL, .bindHost, .bindPort, .tlsCert, .tlsKey, .storeType, .redisHost, .redisPort,
    .redisPrefix, .networkType, .sfuInterfaces]

theorem Field.mem_all (f : Field) : f ∈ Field.all := by
  cases f <;> decide

inductive Value where
  | string (value : String)
  | int (value : Int)
  | strings (values : List String)
deriving Repr, DecidableEq

/-- The variable a field is read from, after the prefix. -/
def Field.envName : Field → String
  | baseURL => "BASE_URL"
  | bindHost => "BIND_HOST"
  | bindPort => "BIND_PORT"
  | tlsCert => "TLS_CERT"
  | tlsKey => "TLS_KEY"
  | storeType => "STORE_TYPE"
  | redisHost => "STORE_REDIS_HOST"
  | redisPort => "STORE_REDIS_PORT"
  | redisPrefix => "STORE_REDIS_PREFIX"
  | networkType => "NETWORK_TYPE"
  | sfuInterfaces => "NETWORK_SFU_INTERFACES"

def Field.get : Field → Config → Value
  | baseURL, c => .string c.baseURL
  | bindHost, c => .string c.bindHost
  | bindPort, c => .int c.bindPort
  | tlsCert, c => .string c.tls.cert
  | tlsKey, c => .string c.tls.key
  | storeType, c => .string c.store.type
  | redisHost, c => .string c.store.redis.host
  | redisPort, c => .int c.store.redis.port
  | redisPrefix, c => .string c.store.redis.keyPrefix
  | networkType, c => .string c.network.type
  | sfuInterfaces, c => .strings c.network.sfu.interfaces

def parseString (text : String) : Option Value :=
  if text = "" then none else some (.string text)

def parseInt (text : String) : Option Value :=
  (atoi text).map .int

def parseChoice (first second text : String) : Option Value :=
  if text = first ∨ text = second then some (.string text) else none

def parseStringArray (text : String) : Option Value :=
  if text = "" then none else some (.strings (splitComma text))

/-- What a variable's text sets its field to, if the field accepts it. -/
def Field.parse (k : Constants) : Field → String → Option Value
  | bindPort | redisPort => parseInt
  | storeType => parseChoice storeTypeRedis k.storeTypeMemory
  | networkType => parseChoice k.networkTypeMesh networkTypeSFU
  | sfuInterfaces => parseStringArray
  | baseURL | bindHost | tlsCert | tlsKey | redisHost | redisPrefix => parseString

/-! ## Each setter is its row of the table -/

section

variable (env : Env) (name : String)

@[simp] theorem parseString_getD (dest : String) :
    (parseString (env name)).getD (.string dest) = .string (setEnvString env name dest) := by
  unfold parseString setEnvString
  split_ifs <;> simp_all

@[simp] theorem parseInt_getD (dest : Int) :
    (parseInt (env name)).getD (.int dest) = .int (setEnvInt env name dest) := by
  unfold parseInt setEnvInt
  cases atoi (env name) <;> rfl

@[simp] theorem parseChoice_getD (first second dest : String) :
    (parseChoice first second (env name)).getD (.string dest) =
      .string (setEnvChoice first second env name dest) := by
  unfold parseChoice setEnvChoice
  by_cases isFirst : env name = first
  · simp [isFirst]
  · by_cases isSecond : env name = second
    · rw [isSecond] at isFirst ⊢
      simp [isFirst]
    · simp [isFirst, isSecond]

@[simp] theorem parseStringArray_getD (dest : List String) :
    (parseStringArray (env name)).getD (.strings dest) =
      .strings (setEnvStringArray env name dest) := by
  unfold parseStringArray setEnvStringArray
  split_ifs <;> simp_all

end

@[simp] theorem Field.get_iceServers (f : Field) (c : Config) (servers : List ICEServer) :
    f.get { c with iceServers := servers } = f.get c := by
  cases f <;> rfl

theorem Field.get_readEnv (k : Constants) (envPrefix : String) (env : Env) (c : Config)
    (f : Field) :
    f.get (readEnv k envPrefix env c) =
      (f.parse k (env (envPrefix ++ f.envName))).getD (f.get c) := by
  simp only [readEnv]
  split <;> cases f <;>
    simp [Field.get, Field.parse, Field.envName, setEnvStoreType, setEnvNetworkType]

/-- `ReadEnv` is the table: every field takes the value its own variable
gives it when the field accepts that value, and keeps its old value
otherwise; no two fields share a variable. -/
theorem readEnv_fields (k : Constants) (envPrefix : String) (env : Env) (c : Config) :
    (∀ f : Field, f.get (readEnv k envPrefix env c) =
      (f.parse k (env (envPrefix ++ f.envName))).getD (f.get c)) ∧
    Function.Injective Field.envName := by
  have distinct : (Field.all.map Field.envName).Nodup := by decide
  exact ⟨Field.get_readEnv k envPrefix env c, fun f g same =>
    List.inj_on_of_nodup_map distinct (Field.mem_all f) (Field.mem_all g) same⟩

/-- `TestReadFromEnv`: every variable under `PEERCALLSTEST_` set, on the zero
config. -/
example :
    let env : Env := fun name =>
      if name = "PEERCALLSTEST_BASE_URL" then "/test"
      else if name = "PEERCALLSTEST_TLS_CERT" then "test.pem"
      else if name = "PEERCALLSTEST_TLS_KEY" then "test.key"
      else if name = "PEERCALLSTEST_STORE_TYPE" then "redis"
      else if name = "PEERCALLSTEST_STORE_REDIS_HOST" then "localhost"
      else if name = "PEERCALLSTEST_STORE_REDIS_PORT" then "6379"
      else if name = "PEERCALLSTEST_STORE_REDIS_PREFIX" then "peercalls"
      else if name = "PEERCALLSTEST_ICE_SERVER_URLS" then
        "stun:stun.l.google.com:19302,stuns:stun.l.google.com:19302"
      else if name = "PEERCALLSTEST_ICE_SERVER_AUTH_TYPE" then "secret"
      else if name = "PEERCALLSTEST_ICE_SERVER_USERNAME" then "test_user"
      else if name = "PEERCALLSTEST_ICE_SERVER_SECRET" then "test_secret"
      else if name = "PEERCALLSTEST_NETWORK_TYPE" then "sfu"
      else if name = "PEERCALLSTEST_NETWORK_SFU_INTERFACES" then "a,b"
      else ""
    readEnv ⟨"memory", "mesh", ""⟩ "PEERCALLSTEST_" env zeroConfig =
      { zeroConfig with
        baseURL := "/test"
        tls := ⟨"test.pem", "test.key"⟩
        store := ⟨"redis", ⟨"localhost", 6379, "peercalls"⟩⟩
        network := ⟨"sfu", ⟨["a", "b"]⟩⟩
        iceServers := [⟨["stun:stun.l.google.com:19302", "stuns:stun.l.google.com:19302"],
          "secret", ⟨"test_user", "test_secret"⟩⟩] } := by
  decide

end PeerCalls.Config
