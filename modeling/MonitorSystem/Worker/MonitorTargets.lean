import MonitorSystem.Library.Words
import MonitorSystem.Manager.ConfigLoading

/-!
# The instances that a worker monitors

The monitors of MySQL and Redis (`worker/src/monitor/MysqlMonitor.cpp` and `RedisMonitor.cpp`) read
their instances from the environment when they are constructed. A variable may list any number of
them: a semicolon stands between two instances, and the fields of an instance are separated by
bars. Without it, other variables describe a single one, if the monitor is enabled.

A list of instances has a text (`listText`), and the monitor reads the list back from it exactly
if each of the instances can be written: no field holds a bar or a semicolon, those with a default
are not empty, and the port is positive (`targets_read_back`). Whatever the variable holds, the
instances that are read from it can be written.
-/

namespace MonitorSystem

/-! ### Reading a field -/

/-- `std::stoi`, nothing where it throws. -/
def stoi (text : List Char) : Option ℤ :=
  (strtol text).bind fun (n, _) => if -(2 ^ 31) ≤ n ∧ n < 2 ^ 31 then some n else none

/-- `isTruthy`. -/
def isTruthy (value : String) : Bool :=
  .ofList (value.toList.map Char.toLower) ∈ ["1", "true", "yes", "on"]

/-- `parsePort`, and `parseTimeout`, which does the same: the number of a text, or a fallback where
there is no positive one. -/
def parsePort (value : List Char) (fallback : ℕ) : ℕ :=
  if value = [] then fallback
  else
    match stoi value with
    | some parsed => if 0 < parsed then parsed.toNat else fallback
    | none => fallback

/-- A field of an entry, or its default where it is empty or not there. -/
def fieldOr (parts : List (List Char)) (i : ℕ) (fallback : List Char) : List Char :=
  if parts.getD i [] = [] then fallback else parts.getD i []

/-- The name of an instance that has none of its own. -/
def addressName (host : List Char) (port : ℕ) : List Char :=
  host ++ ':' :: Nat.toDigits 10 port

/-- What a field that is written may hold: no bar and no semicolon. -/
def PlainField (field : List Char) : Prop := '|' ∉ field ∧ ';' ∉ field

/-- The text of the fields of an entry. -/
def entryText (fields : List (List Char)) : List Char := ['|'].intercalate fields

/-- The text of a list, with the fields of its items. -/
def listText {τ : Type} (fields : τ → List (List Char)) (ts : List τ) : List Char :=
  [';'].intercalate (ts.map fun t => entryText (fields t))

/-- The entries of a list: an empty one is skipped. -/
def entries (targetConfig : List Char) : List (List Char) :=
  (Words.pieces ';' targetConfig).filter fun entry => !entry.isEmpty

/-! ### The two monitors -/

namespace RedisMonitor

/-- `RedisMonitor::Target`. -/
structure Target where
  instanceName : List Char
  host : List Char
  port : ℕ
  password : List Char
  deriving DecidableEq, Repr

/-- The default of the host. -/
def defaultHost : List Char := ['1', '2', '7', '.', '0', '.', '0', '.', '1']

/-- One entry of the list. -/
def parseTarget (entry : List Char) : Target :=
  let parts := Words.pieces '|' entry
  let host := fieldOr parts 1 defaultHost
  let port := parsePort (parts.getD 2 []) 6379
  { instanceName := fieldOr parts 0 (addressName host port)
    host
    port
    password := parts.getD 3 [] }

/-- The constructor: the instances that are monitored. -/
def targets (env : Environment) : List Target :=
  let targetConfig := envString env "REDIS_MONITOR_TARGETS" ""
  if targetConfig ≠ "" then (entries targetConfig.toList).map parseTarget
  else if isTruthy (envString env "REDIS_MONITOR_ENABLED" "") then
    let host := (envString env "REDIS_MONITOR_HOST" (.ofList defaultHost)).toList
    let port := parsePort (envString env "REDIS_MONITOR_PORT" "").toList 6379
    [{ instanceName :=
         (envString env "REDIS_MONITOR_INSTANCE" (.ofList (addressName host port))).toList
       host
       port
       password := (envString env "REDIS_MONITOR_PASSWORD" "").toList }]
  else []

/-- The fields of a target, as they are written. -/
def Target.fields (t : Target) : List (List Char) :=
  [t.instanceName, t.host, Nat.toDigits 10 t.port, t.password]

/-- **A target that can be written.** -/
structure Target.Writable (t : Target) : Prop where
  plain : PlainField t.instanceName ∧ PlainField t.host ∧ PlainField t.password
  instanceName_ne : t.instanceName ≠ []
  host_ne : t.host ≠ []
  port_pos : 0 < t.port
  port_lt : t.port < 2 ^ 31

end RedisMonitor

namespace MysqlMonitor

/-- `MysqlMonitor::Target`. -/
structure Target where
  instanceName : List Char
  host : List Char
  port : ℕ
  user : List Char
  password : List Char
  roleHint : List Char
  deriving DecidableEq, Repr

/-- The default of the host. -/
def defaultHost : List Char := ['1', '2', '7', '.', '0', '.', '0', '.', '1']

/-- The default of the role: there is no hint. -/
def defaultRole : List Char := ['u', 'n', 'k', 'n', 'o', 'w', 'n']

/-- One entry of the list. -/
def parseTarget (entry : List Char) : Target :=
  let parts := Words.pieces '|' entry
  let host := fieldOr parts 1 defaultHost
  let port := parsePort (parts.getD 2 []) 3306
  { instanceName := fieldOr parts 0 (addressName host port)
    host
    port
    user := parts.getD 3 []
    password := parts.getD 4 []
    roleHint := fieldOr parts 5 defaultRole }

/-- The constructor: the instances that are monitored. -/
def targets (env : Environment) : List Target :=
  let targetConfig := envString env "MYSQL_MONITOR_TARGETS" ""
  if targetConfig ≠ "" then (entries targetConfig.toList).map parseTarget
  else if isTruthy (envString env "MYSQL_MONITOR_ENABLED" "") then
    let host := (envString env "MYSQL_MONITOR_HOST" (.ofList defaultHost)).toList
    let port := parsePort (envString env "MYSQL_MONITOR_PORT" "").toList 3306
    [{ instanceName :=
         (envString env "MYSQL_MONITOR_INSTANCE" (.ofList (addressName host port))).toList
       host
       port
       user := (envString env "MYSQL_MONITOR_USER" "").toList
       password := (envString env "MYSQL_MONITOR_PASSWORD" "").toList
       roleHint := (envString env "MYSQL_MONITOR_ROLE" (.ofList defaultRole)).toList }]
  else []

/-- The fields of a target, as they are written. -/
def Target.fields (t : Target) : List (List Char) :=
  [t.instanceName, t.host, Nat.toDigits 10 t.port, t.user, t.password, t.roleHint]

/-- **A target that can be written.** -/
structure Target.Writable (t : Target) : Prop where
  plain : PlainField t.instanceName ∧ PlainField t.host ∧ PlainField t.user ∧
    PlainField t.password ∧ PlainField t.roleHint
  instanceName_ne : t.instanceName ≠ []
  host_ne : t.host ≠ []
  roleHint_ne : t.roleHint ≠ []
  port_pos : 0 < t.port
  port_lt : t.port < 2 ^ 31

end MysqlMonitor

/-! ### Numbers and fields -/

section Fields

variable {fields : List (List Char)} {entry : List Char}

theorem strtol_toDigits (n : ℕ) : strtol (Nat.toDigits 10 n) = some (saturateLong n, []) := by
  have hdigit : ∀ c ∈ Nat.toDigits 10 n, c.isDigit = true := fun c hc =>
    Nat.isDigit_of_mem_toDigits (by decide) (by decide) hc
  have hdrop : (Nat.toDigits 10 n).dropWhile (·.isDigit) = [] :=
    List.dropWhile_eq_nil_iff.mpr hdigit
  obtain ⟨c, cs, hcs⟩ := List.exists_cons_of_ne_nil (Nat.toDigits_ne_nil (n := n) (b := 10))
  have hblank : (Nat.toDigits 10 n).dropWhile isspace = Nat.toDigits 10 n := by
    rw [hcs, List.dropWhile_cons_of_neg]
    rw [isspace_eq_false_of_isDigit (hdigit c (by simp [hcs]))]
    decide
  unfold strtol
  rw [hblank]
  -- a sign is not a digit
  split
  · next rest hrest => cases hdigit '-' (by simp [hrest])
  · next rest hrest => cases hdigit '+' (by simp [hrest])
  · dsimp only
    rw [leadingNat_toDigits, hdrop]
    exact congrArg (fun k => some (saturateLong k, [])) (one_mul (n : ℤ))

/-- **A port is read back.** -/
theorem parsePort_toDigits {port : ℕ} (hpos : 0 < port) (hlt : port < 2 ^ 31) (fallback : ℕ) :
    parsePort (Nat.toDigits 10 port) fallback = port := by
  have hstoi : stoi (Nat.toDigits 10 port) = some (port : ℤ) := by
    have hsaturate : saturateLong port = port := by
      rw [saturateLong]
      omega
    rw [stoi, strtol_toDigits, Option.bind_some, hsaturate]
    exact if_pos ⟨by omega, by omega⟩
  rw [parsePort, if_neg Nat.toDigits_ne_nil, hstoi]
  show (if 0 < (port : ℤ) then (port : ℤ).toNat else fallback) = port
  rw [if_pos (by omega), Int.toNat_natCast]

/-- Every port that is read is positive and fits into an `int`. -/
theorem parsePort_mem (value : List Char) {fallback : ℕ} (hpos : 0 < fallback)
    (hlt : fallback < 2 ^ 31) :
    0 < parsePort value fallback ∧ parsePort value fallback < 2 ^ 31 := by
  rw [parsePort]
  split
  · exact ⟨hpos, hlt⟩
  · split
    · next parsed hparsed =>
      split
      · next hparsed_pos =>
        rw [stoi] at hparsed
        obtain ⟨⟨n, rest⟩, -, hn⟩ := Option.bind_eq_some_iff.mp hparsed
        dsimp only at hn
        split at hn
        · obtain rfl := Option.some.inj hn
          omega
        · cases hn
      · exact ⟨hpos, hlt⟩
    · exact ⟨hpos, hlt⟩

theorem plain_toDigits (n : ℕ) : PlainField (Nat.toDigits 10 n) := by
  have hdigit : ∀ c ∈ Nat.toDigits 10 n, c.isDigit = true := fun c hc =>
    Nat.isDigit_of_mem_toDigits (by decide) (by decide) hc
  constructor
  · intro hmem
    cases hdigit _ hmem
  · intro hmem
    cases hdigit _ hmem

theorem plain_nil : PlainField [] := ⟨List.not_mem_nil, List.not_mem_nil⟩

/-- **The fields of an entry are read back.** -/
theorem getD_pieces_entryText (h : ∀ w ∈ fields, PlainField w) (hne : fields ≠ []) (i : ℕ) :
    (Words.pieces '|' (entryText fields)).getD i [] = fields.getD i [] :=
  Words.getD_pieces_intercalate (fun w hw => (h w hw).1) hne i

/-- The fields that are read from an entry of a list. -/
theorem plain_getD_pieces (h : ';' ∉ entry) (i : ℕ) :
    PlainField ((Words.pieces '|' entry).getD i []) := by
  rw [List.getD_eq_getElem?_getD]
  rcases hget : (Words.pieces '|' entry)[i]? with _ | w
  · exact plain_nil
  · have hw := List.mem_of_getElem? hget
    exact ⟨Words.notMem_of_mem_pieces hw, fun hmem => h (Words.mem_of_mem_pieces hw hmem)⟩

theorem fieldOr_of_ne {parts : List (List Char)} {i : ℕ} {w fallback : List Char}
    (h : parts.getD i [] = w) (hne : w ≠ []) : fieldOr parts i fallback = w := by
  rw [fieldOr, h, if_neg hne]

theorem fieldOr_mem {parts : List (List Char)} {i : ℕ} {fallback : List Char}
    (h : PlainField (parts.getD i [])) (hfallback : PlainField fallback) (hne : fallback ≠ []) :
    PlainField (fieldOr parts i fallback) ∧ fieldOr parts i fallback ≠ [] := by
  rw [fieldOr]
  split
  · exact ⟨hfallback, hne⟩
  · next hnonempty => exact ⟨h, hnonempty⟩

theorem plain_addressName {host : List Char} (h : PlainField host) (port : ℕ) :
    PlainField (addressName host port) := by
  obtain ⟨hbar, hsemicolon⟩ := h
  obtain ⟨hbar', hsemicolon'⟩ := plain_toDigits port
  rw [addressName]
  constructor
  · simp [hbar, hbar']
  · simp [hsemicolon, hsemicolon']

/-- **The entries of a list are read back**, if no entry is empty or holds a semicolon. -/
theorem entries_intercalate {texts : List (List Char)} (h : ∀ t ∈ texts, ';' ∉ t ∧ t ≠ []) :
    entries ([';'].intercalate texts) = texts := by
  have hlast : texts.getLast? ≠ some [] := by
    intro hlast
    exact (h [] (List.mem_of_getLast? hlast)).2 rfl
  rw [entries, Words.pieces_intercalate (fun t ht => (h t ht).1) hlast,
    List.filter_eq_self.mpr fun t ht => ?_]
  simpa using (h t ht).2

theorem notMem_of_mem_entries {targetConfig : List Char} (h : entry ∈ entries targetConfig) :
    ';' ∉ entry :=
  Words.notMem_of_mem_pieces (List.mem_of_mem_filter h)

/-- The text of an entry with a first field that is not empty. -/
theorem entryText_mem (h : ∀ w ∈ fields, PlainField w) (hfirst : fields.head? ≠ some [])
    (hne : fields ≠ []) : ';' ∉ entryText fields ∧ entryText fields ≠ [] := by
  refine ⟨Words.notMem_intercalate (by decide) fun w hw => (h w hw).2, ?_⟩
  obtain ⟨w, ws, rfl⟩ := List.exists_cons_of_ne_nil hne
  obtain ⟨c, cs, rfl⟩ := List.exists_cons_of_ne_nil (show w ≠ [] by simpa using hfirst)
  intro hnil
  have hmem : c ∈ entryText ((c :: cs) :: ws) := Words.mem_intercalate List.mem_cons_self (by simp)
  rw [hnil] at hmem
  cases hmem

/-- The name and the port that are read from an entry. -/
theorem fieldOr_instance_mem (h : ';' ∉ entry) {host : List Char} (hhost : PlainField host)
    (port : ℕ) :
    PlainField (fieldOr (Words.pieces '|' entry) 0 (addressName host port)) ∧
      fieldOr (Words.pieces '|' entry) 0 (addressName host port) ≠ [] :=
  fieldOr_mem (plain_getD_pieces h 0) (plain_addressName hhost port) (by simp [addressName])

/-- **A list is read back exactly if each of its items can be written**, where what is read can be
written and what can be written is read back. -/
theorem parse_listText_iff {τ : Type} {parse : List Char → τ} {fields : τ → List (List Char)}
    {writable : τ → Prop} (hparse : ∀ entry, ';' ∉ entry → writable (parse entry))
    (hback : ∀ t, writable t → parse (entryText (fields t)) = t)
    (hfields : ∀ t, writable t → ∀ w ∈ fields t, PlainField w)
    (hfirst : ∀ t, writable t → (fields t).head? ≠ some [])
    (hne : ∀ t, fields t ≠ []) (ts : List τ) :
    (entries (listText fields ts)).map parse = ts ↔ ∀ t ∈ ts, writable t := by
  constructor
  · intro h t ht
    rw [← h] at ht
    obtain ⟨entry, hentry, rfl⟩ := List.mem_map.mp ht
    exact hparse entry (notMem_of_mem_entries hentry)
  · intro h
    have htexts : ∀ text ∈ ts.map (fun t => entryText (fields t)), ';' ∉ text ∧ text ≠ [] := by
      intro text htext
      obtain ⟨t, ht, rfl⟩ := List.mem_map.mp htext
      exact entryText_mem (hfields t (h t ht)) (hfirst t (h t ht)) (hne t)
    rw [listText, entries_intercalate htexts, List.map_map]
    conv_rhs => rw [← List.map_id ts]
    exact List.map_congr_left fun t ht => hback t (h t ht)

/-- The text of a list with an item of at least two fields is not empty. -/
theorem listText_ne_nil {τ : Type} {fields : τ → List (List Char)} {t : τ} {ts : List τ}
    {v w : List Char} {ws : List (List Char)} (h : fields t = v :: w :: ws) :
    listText fields (t :: ts) ≠ [] := by
  have hentry : '|' ∈ entryText (fields t) := by
    rw [h, entryText, List.intercalate_cons_of_ne_nil (by simp)]
    simp
  intro hnil
  have hmem : '|' ∈ listText fields (t :: ts) :=
    Words.mem_intercalate (List.mem_map_of_mem List.mem_cons_self) hentry
  rw [hnil] at hmem
  cases hmem

end Fields

/-! ### The instances of Redis -/

namespace RedisMonitor

variable {t : Target} {ts : List Target}

theorem Target.Writable.fields_plain (h : t.Writable) : ∀ w ∈ t.fields, PlainField w := by
  intro w hw
  rw [Target.fields] at hw
  simp only [List.mem_cons, List.not_mem_nil, or_false] at hw
  obtain ⟨hinstance, hhost, hpassword⟩ := h.plain
  rcases hw with rfl | rfl | rfl | rfl
  · exact hinstance
  · exact hhost
  · exact plain_toDigits _
  · exact hpassword

/-- **A target is read back.** -/
theorem parseTarget_entryText (h : t.Writable) : parseTarget (entryText t.fields) = t := by
  have hfield := getD_pieces_entryText h.fields_plain (show t.fields ≠ [] by simp [Target.fields])
  have hport : parsePort ((Words.pieces '|' (entryText t.fields)).getD 2 []) 6379 = t.port := by
    rw [hfield 2]
    exact parsePort_toDigits h.port_pos h.port_lt _
  simp only [parseTarget, fieldOr_of_ne (hfield 0) h.instanceName_ne,
    fieldOr_of_ne (hfield 1) h.host_ne, hport, hfield 3]
  rfl

/-- **What is read can be written**, whatever an entry holds. -/
theorem writable_parseTarget {entry : List Char} (h : ';' ∉ entry) :
    (parseTarget entry).Writable := by
  have hfield := plain_getD_pieces h
  have hplain : PlainField defaultHost := by constructor <;> decide
  have hhost := fieldOr_mem (hfield 1) hplain (by decide)
  have hport := parsePort_mem ((Words.pieces '|' entry).getD 2 []) (show 0 < 6379 by decide)
    (by decide)
  have hinstance := fieldOr_instance_mem h hhost.1
    (parsePort ((Words.pieces '|' entry).getD 2 []) 6379)
  exact ⟨⟨hinstance.1, hhost.1, hfield 3⟩, hinstance.2, hhost.2, hport.1, hport.2⟩

/-- **A list of targets is read back exactly if each of them can be written.** -/
theorem parse_targets_iff (ts : List Target) :
    (entries (listText Target.fields ts)).map parseTarget = ts ↔ ∀ t ∈ ts, t.Writable :=
  parse_listText_iff (fun _ => writable_parseTarget) (fun _ => parseTarget_entryText)
    (fun _ h => h.fields_plain) (fun t h => by simpa [Target.fields] using h.instanceName_ne)
    (fun t => by simp [Target.fields]) ts

end RedisMonitor

/-! ### The instances of MySQL -/

namespace MysqlMonitor

variable {t : Target} {ts : List Target}

theorem Target.Writable.fields_plain (h : t.Writable) : ∀ w ∈ t.fields, PlainField w := by
  intro w hw
  rw [Target.fields] at hw
  simp only [List.mem_cons, List.not_mem_nil, or_false] at hw
  obtain ⟨hinstance, hhost, huser, hpassword, hrole⟩ := h.plain
  rcases hw with rfl | rfl | rfl | rfl | rfl | rfl
  · exact hinstance
  · exact hhost
  · exact plain_toDigits _
  · exact huser
  · exact hpassword
  · exact hrole

/-- **A target is read back.** -/
theorem parseTarget_entryText (h : t.Writable) : parseTarget (entryText t.fields) = t := by
  have hfield := getD_pieces_entryText h.fields_plain (show t.fields ≠ [] by simp [Target.fields])
  have hport : parsePort ((Words.pieces '|' (entryText t.fields)).getD 2 []) 3306 = t.port := by
    rw [hfield 2]
    exact parsePort_toDigits h.port_pos h.port_lt _
  simp only [parseTarget, fieldOr_of_ne (hfield 0) h.instanceName_ne,
    fieldOr_of_ne (hfield 1) h.host_ne, hport, hfield 3, hfield 4,
    fieldOr_of_ne (hfield 5) h.roleHint_ne]
  rfl

/-- **What is read can be written**, whatever an entry holds. -/
theorem writable_parseTarget {entry : List Char} (h : ';' ∉ entry) :
    (parseTarget entry).Writable := by
  have hfield := plain_getD_pieces h
  have hplain : PlainField defaultHost := by constructor <;> decide
  have hhost := fieldOr_mem (hfield 1) hplain (by decide)
  have hnone : PlainField defaultRole := by constructor <;> decide
  have hrole := fieldOr_mem (hfield 5) hnone (by decide)
  have hport := parsePort_mem ((Words.pieces '|' entry).getD 2 []) (show 0 < 3306 by decide)
    (by decide)
  have hinstance := fieldOr_instance_mem h hhost.1
    (parsePort ((Words.pieces '|' entry).getD 2 []) 3306)
  exact ⟨⟨hinstance.1, hhost.1, hfield 3, hfield 4, hrole.1⟩, hinstance.2, hhost.2, hrole.2,
    hport.1, hport.2⟩

/-- **A list of targets is read back exactly if each of them can be written.** -/
theorem parse_targets_iff (ts : List Target) :
    (entries (listText Target.fields ts)).map parseTarget = ts ↔ ∀ t ∈ ts, t.Writable :=
  parse_listText_iff (fun _ => writable_parseTarget) (fun _ => parseTarget_entryText)
    (fun _ h => h.fields_plain) (fun t h => by simpa [Target.fields] using h.instanceName_ne)
    (fun t => by simp [Target.fields]) ts

end MysqlMonitor

/-! ### The environment -/

/-- An environment in which a variable holds a text. -/
def Environment.set (env : Environment) (name : String) (value : List Char) : Environment :=
  Function.update env name (some (.ofList value))

theorem Environment.envString_set (env : Environment) (name : String) (value : List Char) :
    envString (env.set name value) name "" = .ofList value := by
  rw [envString, Environment.set, Function.update_self]
  rfl

theorem ofList_ne_empty {value : List Char} (h : value ≠ []) : String.ofList value ≠ "" := by
  intro heq
  have hlist := congrArg String.toList heq
  rw [String.toList_ofList] at hlist
  exact h hlist

/-- **The lists of instances are read back from the environment exactly if they can be written**,
for both monitors; and whatever the environment lists, the instances that are read can be written,
so that writing them and reading them again gives the same instances. -/
theorem targets_read_back (env : Environment) :
    (∀ (t : RedisMonitor.Target) (ts : List RedisMonitor.Target),
      RedisMonitor.targets (env.set "REDIS_MONITOR_TARGETS"
          (listText RedisMonitor.Target.fields (t :: ts))) = t :: ts ↔
        ∀ u ∈ t :: ts, u.Writable) ∧
    (∀ (t : MysqlMonitor.Target) (ts : List MysqlMonitor.Target),
      MysqlMonitor.targets (env.set "MYSQL_MONITOR_TARGETS"
          (listText MysqlMonitor.Target.fields (t :: ts))) = t :: ts ↔
        ∀ u ∈ t :: ts, u.Writable) ∧
    (envString env "REDIS_MONITOR_TARGETS" "" ≠ "" →
      ∀ t ∈ RedisMonitor.targets env, t.Writable) ∧
    (envString env "MYSQL_MONITOR_TARGETS" "" ≠ "" →
      ∀ t ∈ MysqlMonitor.targets env, t.Writable) := by
  refine ⟨?_, ?_, ?_, ?_⟩
  · intro t ts
    have hne : String.ofList (listText RedisMonitor.Target.fields (t :: ts)) ≠ "" :=
      ofList_ne_empty (listText_ne_nil rfl)
    rw [RedisMonitor.targets, Environment.envString_set, if_pos hne, String.toList_ofList]
    exact RedisMonitor.parse_targets_iff (t :: ts)
  · intro t ts
    have hne : String.ofList (listText MysqlMonitor.Target.fields (t :: ts)) ≠ "" :=
      ofList_ne_empty (listText_ne_nil rfl)
    rw [MysqlMonitor.targets, Environment.envString_set, if_pos hne, String.toList_ofList]
    exact MysqlMonitor.parse_targets_iff (t :: ts)
  · intro hlisted t ht
    rw [RedisMonitor.targets, if_pos hlisted] at ht
    obtain ⟨entry, hentry, rfl⟩ := List.mem_map.mp ht
    exact RedisMonitor.writable_parseTarget (notMem_of_mem_entries hentry)
  · intro hlisted t ht
    rw [MysqlMonitor.targets, if_pos hlisted] at ht
    obtain ⟨entry, hentry, rfl⟩ := List.mem_map.mp ht
    exact MysqlMonitor.writable_parseTarget (notMem_of_mem_entries hentry)

end MonitorSystem
