import MonitorSystem.Agent.GatewayTools
import MonitorSystem.Gateway.QueryParams

/-!
# The requests of the tools, as they arrive

The URL of a request between the two services: the agent builds it of the address of the gateway,
a path and a query (`buildAPIGatewayURL`), the HTTP client takes its request target
(`requestTarget`), and the gateway splits that again into a path, whose segments give the route and
the server, and a query, whose pairs give the parameters (`readRequest`).

Between the ends nothing changes: the target is the path and the query of the request
(`requestTarget_buildAPIGatewayURL`), and a request about a server is read with that server and
with the values that have been set, whatever characters are in them
(`readRequest_serverPath`). The exception is a slash in the name of the server, which the router
takes for the end of a segment.
-/

namespace MonitorSystem

open Percent

/-! ### The address and the query of a request -/

theorem trimSlashes_baseURL (a : GatewayAddress) :
    trimSlashes a.baseURL = a.scheme ++ "://" ++ a.host := by
  have hhead : ∀ c ∈ (a.scheme ++ "://" ++ a.host).toList.reverse.head?,
      decide (c = '/') = false := by
    intro c hc
    have hne : a.host.toList ≠ [] := fun h => a.host_ne (String.toList_inj.mp h)
    rw [List.head?_reverse, String.toList_append, List.getLast?_append_of_ne_nil _ hne] at hc
    refine decide_eq_false ?_
    rintro rfl
    exact a.host_plain '/' (by simp) (List.mem_of_getLast? hc)
  rw [trimSlashes, List.rdropWhile, GatewayAddress.baseURL, String.toList_append,
    String.toList_ofList, List.reverse_append, List.reverse_replicate,
    List.dropWhile_append_of_pos (by simp), dropWhile_of_head hhead, List.reverse_reverse,
    String.ofList_toList]

theorem textBytes_trimSlashes_baseURL (a : GatewayAddress) :
    textBytes (trimSlashes a.baseURL) =
      textBytes a.scheme ++ 58 :: 47 :: 47 :: textBytes a.host := by
  rw [trimSlashes_baseURL, textBytes_append, textBytes_append, List.append_assoc]
  rfl

/-- An ASCII character that is not in a text is not in its bytes. -/
theorem notMem_textBytes {b : UInt8} {s : String} (c : Char) (hb : b = UInt8.ofNat c.toNat)
    (hc : c.toNat < 128) (h : c ∉ s.toList) : b ∉ textBytes s := by
  intro hmem
  rw [hb] at hmem
  exact h ((ofNat_toNat_mem_textBytes hc).mp hmem)

/-- What ends a path or a query is not in the address. -/
theorem notMem_base {b : UInt8} (a : GatewayAddress) (c : Char) (hc : c ∈ ['?', '#'])
    (hb : b = UInt8.ofNat c.toNat) (hlt : c.toNat < 128) (hcolon : b ≠ 58) (hslash : b ≠ 47) :
    b ∉ textBytes (trimSlashes a.baseURL) := by
  have hscheme : c ∉ a.scheme.toList :=
    a.scheme_plain c (List.mem_cons_of_mem _ (List.mem_cons_of_mem _ hc))
  have hhost : c ∉ a.host.toList := a.host_plain c (List.mem_cons_of_mem _ hc)
  rw [textBytes_trimSlashes_baseURL]
  refine List.not_mem_append (notMem_textBytes c hb hlt hscheme) ?_
  simp only [List.mem_cons, not_or]
  exact ⟨hcolon, hslash, hslash, notMem_textBytes c hb hlt hhost⟩

theorem encode_eq_nil_iff (v : UrlValues) : v.encode = [] ↔ v.entries = [] := by
  rw [UrlValues.encode, queryText_eq_nil_iff, List.map_eq_nil_iff, UrlValues.sorted,
    ← List.length_eq_zero_iff, List.length_mergeSort, List.length_eq_zero_iff]

/-- The request target of a path and a query. -/
def targetOf (path query : List UInt8) : List UInt8 :=
  if query = [] then path else path ++ 63 :: query

theorem cut_targetOf {path : List UInt8} (h : 63 ∉ path) (query : List UInt8) :
    cut 63 (targetOf path query) = (path, query) := by
  rw [targetOf]
  split_ifs with hq
  · rw [hq, cut_eq_of_notMem h]
  · exact cut_append h query

theorem notMem_targetOf {c : UInt8} {path query : List UInt8} (hpath : c ∉ path)
    (hquery : c ∉ query) (hc : c ≠ 63) : c ∉ targetOf path query := by
  rw [targetOf]
  split_ifs with hq
  · exact hpath
  · simp [hpath, hquery, hc]

/-- **What is asked for at an address** is the path and the query of the request. -/
theorem requestTarget_buildAPIGatewayURL (a : GatewayAddress) {r : ToolRequest}
    {rest : List UInt8} (hpath : r.path = 47 :: rest) (hquestion : 63 ∉ r.path)
    (hfragment : 35 ∉ r.path) :
    requestTarget (buildAPIGatewayURL a.baseURL r) = targetOf r.path r.query.encode := by
  have hcolon : (58 : UInt8) ∉ textBytes a.scheme :=
    notMem_textBytes ':' (by decide) (by decide) (a.scheme_plain ':' (by decide))
  have hslash : (47 : UInt8) ∉ textBytes a.host :=
    notMem_textBytes '/' (by decide) (by decide) (a.host_plain '/' (by decide))
  have hbaseFragment : (35 : UInt8) ∉ textBytes (trimSlashes a.baseURL) :=
    notMem_base a '#' (by decide) (by decide) (by decide) (by decide) (by decide)
  have hbaseQuestion : (63 : UInt8) ∉ textBytes (trimSlashes a.baseURL) :=
    notMem_base a '?' (by decide) (by decide) (by decide) (by decide) (by decide)
  have hurl : buildAPIGatewayURL a.baseURL r =
      targetOf (textBytes (trimSlashes a.baseURL) ++ r.path) r.query.encode := by
    rw [buildAPIGatewayURL, targetOf, if_congr (encode_eq_nil_iff _).symm rfl rfl]
  have hencode : (35 : UInt8) ∉ r.query.encode :=
    notMem_queryText (by decide) (by decide) (by decide) (by decide) _
  have hnoFragment : (35 : UInt8) ∉ buildAPIGatewayURL a.baseURL r := by
    rw [hurl]
    refine notMem_targetOf ?_ hencode (by decide)
    exact List.not_mem_append hbaseFragment hfragment
  have hnoQuestion : (63 : UInt8) ∉ textBytes (trimSlashes a.baseURL) ++ r.path :=
    List.not_mem_append hbaseQuestion hquestion
  have hhierarchy : (cut 58 (textBytes (trimSlashes a.baseURL) ++ r.path)).2 =
      47 :: 47 :: (textBytes a.host ++ r.path) := by
    rw [textBytes_trimSlashes_baseURL, List.append_assoc]
    exact congrArg Prod.snd (cut_append hcolon _)
  have hdrop : (textBytes a.host ++ r.path).dropWhile (fun b => decide (b ≠ 47)) = r.path := by
    rw [List.dropWhile_append_of_pos, hpath, List.dropWhile_cons_of_neg (by simp)]
    intro b hb
    exact decide_eq_true fun he => hslash (he ▸ hb)
  rw [requestTarget, cut_eq_of_notMem hnoFragment, hurl, cut_targetOf hnoQuestion]
  simp only [hhierarchy, List.drop_succ_cons, List.drop_zero, hdrop]
  rfl

example : requestTarget (buildAPIGatewayURL "http://127.0.0.1:8080/"
    ⟨serverPath "web 1/%" "trend", .empty⟩) =
      textBytes "/api/servers/web%201%2F%25/trend" := by
  decide +kernel

/-! ### The route of a request -/

/-- The segments of a path below `/api/servers`. -/
theorem servers_path : textBytes "/api/servers/" =
    [] ++ 47 :: (textBytes "api" ++ 47 :: (textBytes "servers" ++ [47])) := by
  decide +kernel

theorem splitOn_servers (rest : List UInt8) :
    (textBytes "/api/servers/" ++ rest).splitOn 47 =
      [] :: textBytes "api" :: textBytes "servers" :: rest.splitOn 47 := by
  have hsegments : textBytes "/api/servers/" ++ rest =
      [] ++ 47 :: (textBytes "api" ++ 47 :: (textBytes "servers" ++ 47 :: rest)) := by
    rw [servers_path]
    simp only [List.nil_append, List.cons_append, List.append_assoc]
  have hapi : (47 : UInt8) ∉ textBytes "api" := by decide +kernel
  have hservers : (47 : UInt8) ∉ textBytes "servers" := by decide +kernel
  rw [hsegments, List.splitOn_append_cons_self_of_not_mem List.not_mem_nil,
    List.splitOn_append_cons_self_of_not_mem hapi,
    List.splitOn_append_cons_self_of_not_mem hservers]

/-- A path whose server has a slash in it has six segments or more. -/
theorem route_of_slash {server : List UInt8} (h : 47 ∈ server) (last : List UInt8) :
    route ((textBytes "/api/servers/" ++ (server ++ 47 :: last)).splitOn 47) = none := by
  obtain ⟨front, back, rfl⟩ := List.append_of_mem h
  obtain ⟨x, xs, hx⟩ := List.exists_cons_of_ne_nil (List.splitOn_ne_nil 47 front)
  obtain ⟨y, ys, hy⟩ := List.exists_cons_of_ne_nil (List.splitOn_ne_nil 47 back)
  obtain ⟨z, zs, hz⟩ := List.exists_cons_of_ne_nil (List.splitOn_ne_nil 47 last)
  rw [splitOn_servers, List.splitOn_append_cons_self, List.splitOn_append_cons_self, hx, hy, hz]
  rcases xs with _ | ⟨x', xs⟩
  · rcases ys with _ | ⟨y', ys⟩ <;> rfl
  · rcases xs with _ | ⟨x'', xs⟩ <;> rfl

/-- A path whose server has none belongs to the route of its last segment. -/
theorem route_of_notMem {server last : List UInt8} (hserver : 47 ∉ server) (hlast : 47 ∉ last) :
    route ((textBytes "/api/servers/" ++ (server ++ 47 :: last)).splitOn 47) =
      (findRoute serverRoutes last).map fun endpoint => (endpoint, server) := by
  rw [splitOn_servers, List.splitOn_append_cons_self_of_not_mem hserver,
    List.splitOn_eq_singleton hlast]
  simp only [route, and_self, if_true]

/-- Every route is found by its name, which has no sign of an encoding in it. -/
theorem findRoute_serverRoutes {p : String × Endpoint} (hp : p ∈ serverRoutes) :
    findRoute serverRoutes (textBytes p.1) = some p.2 ∧
      (textBytes p.1).all (fun b => b ∉ [35, 37, 43, 47, 63]) = true ∧
      textBytes ("/" ++ p.1) = 47 :: textBytes p.1 := by
  have hall : ∀ p ∈ serverRoutes, findRoute serverRoutes (textBytes p.1) = some p.2 ∧
      (textBytes p.1).all (fun b => b ∉ [35, 37, 43, 47, 63]) = true ∧
      textBytes ("/" ++ p.1) = 47 :: textBytes p.1 := by
    decide +kernel
  exact hall p hp

/-- What is answered for a server: its name is one segment of the path, or there is no route. -/
def aboutServer (server : String) (answer : Except HttpError Operation) :
    Except HttpError Operation :=
  if '/' ∈ server.toList then .error ⟨404, "404 page not found"⟩ else answer

section Requests

variable {name : String} {endpoint : Endpoint} (hroute : (name, endpoint) ∈ serverRoutes)

include hroute

theorem unescape_serverPath (server : String) :
    unescape false (serverPath server name) =
      some (textBytes "/api/servers/" ++ (textBytes server ++ 47 :: textBytes name)) := by
  obtain ⟨-, hplain, hcons⟩ := findRoute_serverRoutes hroute
  have hpercent : (37 : UInt8) ∉ textBytes ("/" ++ name) := by
    intro hmem
    rw [hcons] at hmem
    rcases List.mem_cons.mp hmem with h | h
    · exact absurd h (by decide)
    · exact absurd (List.all_eq_true.mp hplain _ h) (by decide)
  have hplus : (43 : UInt8) ∉ textBytes ("/" ++ name) := by
    intro hmem
    rw [hcons] at hmem
    rcases List.mem_cons.mp hmem with h | h
    · exact absurd h (by decide)
    · exact absurd (List.all_eq_true.mp hplain _ h) (by decide)
  have hlast : unescape false (textBytes ("/" ++ name)) = some (textBytes ("/" ++ name)) := by
    have hread : unescape false (textBytes ("/" ++ name) ++ []) = _ :=
      unescape_append_of_plain hpercent hplus []
    rwa [List.append_nil, unescape, Option.map_some, List.append_nil] at hread
  rw [serverPath, List.append_assoc,
    unescape_append_of_plain (by decide +kernel) (by decide +kernel), pathEscape,
    unescape_escape_append escapes_segment, hlast, hcons]
  rfl

theorem notMem_serverPath {b : UInt8} (server : String) (hkept : keptInSegment b = false)
    (hunused : Unused b) (hb : b = 35 ∨ b = 63) : b ∉ serverPath server name := by
  obtain ⟨-, hplain, hcons⟩ := findRoute_serverRoutes hroute
  have hbase : b ∉ textBytes "/api/servers/" := by
    rcases hb with rfl | rfl <;> decide +kernel
  have hslash : b ≠ 47 := by
    rcases hb with rfl | rfl <;> decide
  have hlist : b ∈ ([35, 37, 43, 47, 63] : List UInt8) := by
    rcases hb with rfl | rfl <;> decide
  have hname : b ∉ textBytes ("/" ++ name) := by
    intro hmem
    rw [hcons] at hmem
    rcases List.mem_cons.mp hmem with h | h
    · exact hslash h
    · exact of_decide_eq_true (List.all_eq_true.mp hplain b h) hlist
  rw [serverPath]
  exact List.not_mem_append (List.not_mem_append hbase (notMem_escape hkept hunused _)) hname

/-- **What the gateway reads from a request about a server.** -/
theorem readRequest_serverPath (r : ParamReaders) (now : ℤ) (claims : Claims) (a : GatewayAddress)
    (server : String) (v : UrlValues) (htenant : queryParam v.values "tenant_id" = "")
    (hteam : queryParam v.values "team_id" = "")
    (hcluster : queryParam v.values "cluster_id" = "") :
    readRequest r now claims
        (requestTarget (buildAPIGatewayURL a.baseURL ⟨serverPath server name, v⟩)) =
      some
        { claims := some claims
          operation := aboutServer server (readOperation r now v.values server endpoint) } := by
  obtain ⟨hfind, hplain, -⟩ := findRoute_serverRoutes hroute
  have hquestion : (63 : UInt8) ∉ serverPath server name :=
    notMem_serverPath hroute server (by decide) (by decide) (Or.inr rfl)
  have hfragment : (35 : UInt8) ∉ serverPath server name :=
    notMem_serverPath hroute server (by decide) (by decide) (Or.inl rfl)
  have hpath : ∃ rest, serverPath server name = 47 :: rest := by
    rw [serverPath, servers_path]
    exact ⟨_, rfl⟩
  obtain ⟨rest, hrest⟩ := hpath
  have hname : (47 : UInt8) ∉ textBytes name := fun h =>
    absurd (List.all_eq_true.mp hplain _ h) (by decide)
  have hslash : '/' ∈ server.toList ↔ (47 : UInt8) ∈ textBytes server :=
    (ofNat_toNat_mem_textBytes (c := '/') (by decide)).symm
  rw [readRequest, requestTarget_buildAPIGatewayURL a hrest hquestion hfragment,
    cut_targetOf hquestion]
  simp only [unescape_serverPath hroute, aboutServer]
  by_cases hmem : '/' ∈ server.toList
  · rw [route_of_slash (hslash.mp hmem), if_pos hmem]
  · rw [route_of_notMem (mt hslash.mpr hmem) hname, hfind, if_neg hmem]
    simp only [Option.map_some, bytesText_textBytes, UrlValues.parseQuery_encode,
      Option.bind_eq_bind, Option.bind_some, htenant, hteam, hcluster]

end Requests

theorem readRequest_overview (r : ParamReaders) (now : ℤ) (claims : Claims)
    (a : GatewayAddress) :
    readRequest r now claims (requestTarget (buildAPIGatewayURL a.baseURL overviewRequest)) =
      some { claims := some claims, operation := .ok .latest } := by
  have hpath : overviewRequest.path = textBytes "/api/servers/" ++ textBytes "latest" := by
    decide +kernel
  have hquestion : (63 : UInt8) ∉ overviewRequest.path := by decide +kernel
  have hfragment : (35 : UInt8) ∉ overviewRequest.path := by decide +kernel
  have hread : unescape false overviewRequest.path =
      some (textBytes "/api/servers/" ++ textBytes "latest") := by
    decide +kernel
  have hlatest : (47 : UInt8) ∉ textBytes "latest" := by decide +kernel
  have hfind : findRoute clusterRoutes (textBytes "latest") = some .latest := by decide +kernel
  have hroute : route ((textBytes "/api/servers/" ++ textBytes "latest").splitOn 47) =
      some (.latest, []) := by
    rw [splitOn_servers, List.splitOn_eq_singleton hlatest]
    simp only [route, and_self, if_true, hfind, Option.map_some]
  have hrest : ∃ rest, overviewRequest.path = 47 :: rest := by
    rw [hpath, servers_path]
    exact ⟨_, rfl⟩
  obtain ⟨rest, hrest⟩ := hrest
  rw [readRequest, requestTarget_buildAPIGatewayURL a hrest hquestion hfragment,
    cut_targetOf hquestion]
  simp only [hread, hroute, UrlValues.parseQuery_encode]
  rfl

end MonitorSystem
