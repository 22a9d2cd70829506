import Temporaless.Framework.ByteCode
import Temporaless.Framework.Loop
import Temporaless.Inspection.PageRequest

/-!
# Page tokens with a MAC

A token carries its expiry, the cursor and a MAC over both, the binding of the request and the workspace
of the caller. The MAC is a parameter: an injective function that nobody evaluates who does not have the
key.
-/

namespace Temporaless.Console

open ByteCode Inspection

structure Principal where
  subject : String
  workspace : String
  unscoped : Bool
  deriving DecidableEq, Repr

def workspaceOf (principal : Option Principal) : String := (principal.map Principal.workspace).getD ""

/-- `Time.Unix` of an instant in nanoseconds: whole seconds, as a signed number of 64 bits. -/
def unix (time : Int) : Int := (time / 1000000000).bmod (2 ^ 64)

def uint64 (n : Int) : Nat := (n % (2 ^ 64 : Nat)).toNat

def int64 (n : Nat) : Int := (n : Int).bmod (2 ^ 64)

/-- The key is part of `hmac`, that is HMAC-SHA256 with it. -/
structure MACPageTokens where
  hmac : Bytes → Bytes
  ttl : Int

/-- What the MAC covers, each part framed by its length. -/
def macInput (principal : Option Principal) (binding : String) (body : Bytes) : Bytes :=
  frames 4 [textBytes "temporaless-console/page-token/v1", textBytes binding,
    textBytes (workspaceOf principal), body]

namespace MACPageTokens

variable (tokens : MACPageTokens)

def mac (principal : Option Principal) (binding : String) (body : Bytes) : Bytes :=
  tokens.hmac (macInput principal binding body)

def sealedBody (now : Int) (cursor : Bytes) : Bytes :=
  bigEndian 8 (uint64 (unix (now + tokens.ttl))) ++ cursor

/-- `Seal`. -/
def sealToken (now : Int) (principal : Option Principal) (binding : String) (cursor : Bytes) : List Char :=
  let body := tokens.sealedBody now cursor
  encode body ++ '.' :: encode (tokens.mac principal binding body)

end MACPageTokens

/-- `strings.Cut`. -/
def cut (sep : Char) (text : List Char) : Option (List Char × List Char) :=
  match text.dropWhile (· ≠ sep) with
  | [] => none
  | _ :: after => some (text.takeWhile (· ≠ sep), after)

def splitToken (token : List Char) : Option (Bytes × Bytes) := do
  let (encodedBody, encodedMAC) ← cut '.' token
  let body ← decode encodedBody
  let mac ← decode encodedMAC
  if body.length < 8 then none else some (body, mac)

/-- `Open`. -/
def MACPageTokens.openToken (tokens : MACPageTokens) (now : Int) (principal : Option Principal)
    (binding : String) (token : List Char) : Except Err Bytes :=
  match splitToken token with
  | none => .error (errorf "malformed page token")
  | some (body, mac) =>
    if mac ≠ tokens.mac principal binding body then
      .error (errorf "page token does not belong to this request")
    else if unix now > int64 (ofBigEndian (body.take 8)) then .error (errorf "page token expired")
    else .ok (body.drop 8)

/-- A token that was sealed for the next page of a request. -/
structure Sealing where
  principal : Option Principal
  request : PageRequest
  now : Int
  cursor : Bytes

namespace Sealing

variable (tokens : MACPageTokens) (sealing : Sealing)

def body : Bytes := tokens.sealedBody sealing.now sealing.cursor

def expires : Int := unix (sealing.now + tokens.ttl)

def token : List Char :=
  tokens.sealToken sealing.now sealing.principal sealing.request.binding sealing.cursor

def mac : Bytes := tokens.mac sealing.principal sealing.request.binding (sealing.body tokens)

end Sealing

/-- Who does not have the key can put only such a MAC into a token as stands in a sealed token, or bytes
that are the MAC of nothing. -/
def Presentable (tokens : MACPageTokens) (history : List Sealing) (token : List Char) : Prop :=
  ∀ body mac, splitToken token = some (body, mac) → ∀ input, mac = tokens.hmac input →
    ∃ sealing ∈ history, mac = sealing.mac tokens

/-- A token opens only in a request like that for which its body was sealed, and only until it expires. -/
def Bound (tokens : MACPageTokens) (history : List Sealing) : Prop :=
  ∀ token, Presentable tokens history token → ∀ now principal (request : PageRequest), request.Admitted →
    ∀ cursor, tokens.openToken now principal request.binding token = .ok cursor →
      ∃ sealing ∈ history, (splitToken token).map Prod.fst = some (sealing.body tokens) ∧
        sealing.request = request ∧ workspaceOf sealing.principal = workspaceOf principal ∧
        unix now ≤ sealing.expires tokens ∧ cursor = sealing.cursor

theorem bmod_toNat_emod (n : Int) {m : Nat} (hm : 0 < m) :
    ((n.bmod m % m).toNat : Int).bmod m = n.bmod m := by
  rw [Int.toNat_of_nonneg (Int.emod_nonneg _ (by omega)), Int.emod_bmod, Int.bmod_bmod]

theorem int64_uint64_unix (time : Int) : int64 (uint64 (unix time)) = unix time :=
  bmod_toNat_emod _ (Nat.two_pow_pos 64)

theorem uint64_lt (n : Int) : uint64 n < 256 ^ 8 := by
  unfold uint64
  omega

section Body

variable (tokens : MACPageTokens) (now : Int) (cursor : Bytes)

theorem take_sealedBody : (tokens.sealedBody now cursor).take 8 =
    bigEndian 8 (uint64 (unix (now + tokens.ttl))) :=
  List.take_left' (length_bigEndian _ _)

theorem drop_sealedBody : (tokens.sealedBody now cursor).drop 8 = cursor :=
  List.drop_left' (length_bigEndian _ _)

theorem expiry_sealedBody : int64 (ofBigEndian ((tokens.sealedBody now cursor).take 8)) =
    unix (now + tokens.ttl) := by
  rw [take_sealedBody, ofBigEndian_bigEndian, Nat.mod_eq_of_lt (uint64_lt _), int64_uint64_unix]

end Body

theorem cut_append {before after : List Char} {sep : Char} (h : sep ∉ before) :
    cut sep (before ++ sep :: after) = some (before, after) := by
  have hbefore : ∀ c ∈ before, decide (c ≠ sep) = true := by
    intro c hc
    exact decide_eq_true fun heq => h (heq ▸ hc)
  have hdrop : (before ++ sep :: after).dropWhile (· ≠ sep) = sep :: after := by
    rw [List.dropWhile_append_of_pos hbefore]
    simp
  have htake : (before ++ sep :: after).takeWhile (· ≠ sep) = before := by
    rw [List.takeWhile_append_of_pos hbefore]
    simp
  rw [cut, hdrop, htake]

theorem splitToken_encode {body : Bytes} (mac : Bytes) (h : 8 ≤ body.length) :
    splitToken (encode body ++ '.' :: encode mac) = some (body, mac) := by
  have hdot : '.' ∉ encode body := fun hmem => absurd (mem_encode hmem) (by decide)
  simp [splitToken, cut_append hdot, decode_encode, Nat.not_lt.2 h]

theorem openToken_eq_ok {tokens : MACPageTokens} {now : Int} {principal : Option Principal}
    {binding : String} {token : List Char} {cursor : Bytes} :
    tokens.openToken now principal binding token = .ok cursor ↔
      ∃ body, splitToken token = some (body, tokens.mac principal binding body) ∧
        unix now ≤ int64 (ofBigEndian (body.take 8)) ∧ body.drop 8 = cursor := by
  unfold MACPageTokens.openToken
  cases splitToken token with
  | none => simp
  | some parts =>
    obtain ⟨body, mac⟩ := parts
    simp only [Loop.guard_eq_ok, not_not, not_lt, Except.ok.injEq, Option.some.injEq, Prod.mk.injEq]
    constructor
    · rintro ⟨hmac, hnow, hcursor⟩
      exact ⟨body, ⟨rfl, hmac⟩, hnow, hcursor⟩
    · rintro ⟨body', ⟨rfl, hmac⟩, hnow, hcursor⟩
      exact ⟨hmac, hnow, hcursor⟩

theorem splitToken_token (tokens : MACPageTokens) (sealing : Sealing) :
    splitToken (sealing.token tokens) = some (sealing.body tokens, sealing.mac tokens) := by
  apply splitToken_encode
  simp [MACPageTokens.sealedBody]

/-- The binding, the workspace and the cursor leave room in the lengths of the MAC's input. -/
def Sealing.Short (sealing : Sealing) : Prop :=
  (textBytes sealing.request.binding).length + (textBytes (workspaceOf sealing.principal)).length +
    sealing.cursor.length < 2 ^ 32 - 57

instance (sealing : Sealing) : Decidable sealing.Short := inferInstanceAs (Decidable (_ < _))

theorem macInput_inj {tokens : MACPageTokens} {sealing : Sealing} (hshort : sealing.Short)
    {principal : Option Principal} {binding : String} {body : Bytes}
    (h : macInput sealing.principal sealing.request.binding (sealing.body tokens) =
      macInput principal binding body) :
    sealing.request.binding = binding ∧ workspaceOf sealing.principal = workspaceOf principal ∧
      sealing.body tokens = body := by
  have hlabel : (textBytes "temporaless-console/page-token/v1").length = 33 := by decide
  have hbody : (sealing.body tokens).length = 8 + sealing.cursor.length := by
    simp [Sealing.body, MACPageTokens.sealedBody]
  have hlength : (macInput sealing.principal sealing.request.binding (sealing.body tokens)).length <
      256 ^ 4 := by
    unfold Sealing.Short at hshort
    simp only [macInput, frames_cons, List.length_append, length_bigEndian, hlabel, hbody, frames_nil,
      List.length_nil]
    omega
  have hparts : [textBytes "temporaless-console/page-token/v1", textBytes sealing.request.binding,
      textBytes (workspaceOf sealing.principal), sealing.body tokens] =
      [textBytes "temporaless-console/page-token/v1", textBytes binding,
        textBytes (workspaceOf principal), body] := frames_inj rfl hlength h
  simp only [List.cons.injEq, true_and, and_true] at hparts
  exact ⟨textBytes_inj hparts.1, textBytes_inj hparts.2.1, hparts.2.2⟩

/-- Where the lengths fit into their fields, whatever tokens a caller makes up of those that were sealed
before, one opens only in the request and the workspace its body was sealed for, and until it
expires. -/
theorem bound_of_short (tokens : MACPageTokens) (hhmac : Function.Injective tokens.hmac)
    (history : List Sealing) (hadmitted : ∀ sealing ∈ history, sealing.request.Admitted)
    (hshort : ∀ sealing ∈ history, sealing.Short) : Bound tokens history := by
  intro token hpresentable now principal request hrequest cursor hopen
  obtain ⟨body, hsplit, hnow, hcursor⟩ := openToken_eq_ok.1 hopen
  obtain ⟨sealing, hsealing, hsealed⟩ := hpresentable body _ hsplit _ rfl
  obtain ⟨hbinding, hworkspace, rfl⟩ := macInput_inj (hshort sealing hsealing) (hhmac hsealed.symm)
  refine ⟨sealing, hsealing, ?_, ?_, hworkspace, ?_, ?_⟩
  · rw [hsplit, Option.map_some]
  · exact binding_inj (hadmitted sealing hsealing) hrequest hbinding
  · exact hnow.trans_eq (expiry_sealedBody tokens sealing.now sealing.cursor)
  · exact hcursor.symm.trans (drop_sealedBody tokens sealing.now sealing.cursor)

/-- A sealed token opens exactly in the request it was sealed for, for the callers of its workspace and
until it expires, and then it gives back the cursor. -/
theorem sealedToken_opens_iff (tokens : MACPageTokens) (hhmac : Function.Injective tokens.hmac)
    (sealing : Sealing) (hadmitted : sealing.request.Admitted) (hshort : sealing.Short) (now : Int)
    (principal : Option Principal) {request : PageRequest} (hrequest : request.Admitted)
    (cursor : Bytes) :
    tokens.openToken now principal request.binding (sealing.token tokens) = .ok cursor ↔
      sealing.request = request ∧ workspaceOf sealing.principal = workspaceOf principal ∧
        unix now ≤ sealing.expires tokens ∧ cursor = sealing.cursor := by
  have hexpires := expiry_sealedBody tokens sealing.now sealing.cursor
  have hcursor := drop_sealedBody tokens sealing.now sealing.cursor
  rw [openToken_eq_ok, splitToken_token]
  constructor
  · rintro ⟨body, hparts, hnow, rfl⟩
    obtain ⟨rfl, hmac⟩ := Prod.mk.inj (Option.some.inj hparts)
    obtain ⟨hbinding, hworkspace, -⟩ := macInput_inj hshort (hhmac hmac)
    exact ⟨binding_inj hadmitted hrequest hbinding, hworkspace, hnow.trans_eq hexpires, hcursor⟩
  · rintro ⟨rfl, hworkspace, hnow, rfl⟩
    refine ⟨sealing.body tokens, ?_, hnow.trans_eq hexpires.symm, hcursor⟩
    -- of the caller, the MAC reads the workspace only
    rw [Sealing.mac, MACPageTokens.mac, MACPageTokens.mac, macInput, macInput, hworkspace]

theorem textBytes_ofList (chars : List Char) :
    textBytes (String.ofList chars) = chars.flatMap String.utf8EncodeChar := by
  rw [textBytes, String.toByteArray_ofList, List.utf8Encode, List.toList_data_toByteArray]

/-- A tab and `count` letters after three NUL characters. -/
def paddedWorkspace (count : Nat) : String :=
  String.ofList (['\x00', '\x00', '\x00', '\t'] ++ List.replicate count 'a')

theorem textBytes_paddedWorkspace (count : Nat) :
    textBytes (paddedWorkspace count) = bigEndian 4 9 ++ List.replicate count 97 := by
  have hletters : (List.replicate count 'a').flatMap String.utf8EncodeChar = List.replicate count 97 := by
    induction count with
    | zero => rfl
    | succ count ih => rw [List.replicate_succ, List.flatMap_cons, ih]; rfl
  rw [paddedWorkspace, textBytes_ofList, List.flatMap_append, hletters]
  rfl

/-- The MAC stays the same where the padding moves from the workspace to the body, because neither length
is written in full. -/
theorem macInput_paddedWorkspace {count : Nat} (hcount : (count + 4) % 256 ^ 4 = 0) (subject : String)
    (binding : String) {body : Bytes} (hbody : body.length = 9) :
    macInput (some ⟨subject, paddedWorkspace count, false⟩) binding body =
      macInput none binding (List.replicate count 97 ++ (bigEndian 4 9 ++ body)) := by
  have hempty : textBytes (workspaceOf none) = [] := by decide
  have hworkspace : bigEndian 4 (4 + count) = bigEndian 4 0 := by
    rw [← bigEndian_mod, Nat.add_comm, hcount]
  have hlength : bigEndian 4 (count + (4 + 9)) = bigEndian 4 9 := by
    rw [← bigEndian_mod, ← Nat.add_assoc, Nat.add_mod, hcount]
    rfl
  simp only [macInput, frames_cons, frames_nil, hempty, List.length_append, List.length_replicate,
    length_bigEndian, List.length_nil, hbody, hlength]
  have hpadded : textBytes (workspaceOf (some ⟨subject, paddedWorkspace count, false⟩)) =
      bigEndian 4 9 ++ List.replicate count 97 := textBytes_paddedWorkspace count
  simp only [hpadded, List.length_append, length_bigEndian, List.length_replicate, hworkspace,
    List.append_assoc, List.append_nil, List.nil_append]

def bellTokens : MACPageTokens := ⟨id, 3600000000000⟩

def bellWakes : PageRequest := .wakes "main" "default" true

theorem admitted_bellWakes : bellWakes.Admitted :=
  ⟨by decide, (by decide : WorkflowKey.Valid ⟨"default", "placeholder", "placeholder"⟩)⟩

def bellSealing : Sealing := ⟨some ⟨"ann", "bells", false⟩, bellWakes, 0, [98]⟩

theorem bound_bellSealing : bellSealing.request.Admitted ∧ bellSealing.Short ∧
    Bound bellTokens [bellSealing] := by
  have hshort : bellSealing.Short := by decide
  refine ⟨admitted_bellWakes, hshort, bound_of_short bellTokens Function.injective_id [bellSealing] ?_ ?_⟩
  · intro sealing hsealing
    rw [List.mem_singleton.1 hsealing]
    exact admitted_bellWakes
  · intro sealing hsealing
    rw [List.mem_singleton.1 hsealing]
    exact hshort

/-- Another caller of the workspace goes on with the listing an hour later. -/
theorem sealedToken_opens_bellSealing : bellSealing.request.Admitted ∧ bellSealing.Short ∧
    bellTokens.openToken 3600000000000 (some ⟨"ben", "bells", true⟩) bellWakes.binding
      (bellSealing.token bellTokens) = .ok [98] := by
  have hshort : bellSealing.Short := by decide
  refine ⟨admitted_bellWakes, hshort, (sealedToken_opens_iff bellTokens Function.injective_id bellSealing
    admitted_bellWakes hshort _ _ admitted_bellWakes _).2 ?_⟩
  exact ⟨rfl, rfl, by decide, rfl⟩

def paddedSealing (count : Nat) : Sealing :=
  ⟨some ⟨"ann", paddedWorkspace count, false⟩, bellWakes, 0, [98]⟩

def reframedToken (count : Nat) : List Char :=
  encode (List.replicate count 97 ++ (bigEndian 4 9 ++ (paddedSealing count).body bellTokens)) ++
    '.' :: encode ((paddedSealing count).mac bellTokens)

theorem not_bound_paddedSealing {count : Nat} (hcount : (count + 4) % 256 ^ 4 = 0)
    (hlarge : 8 ≤ count) :
    ¬ Bound bellTokens [paddedSealing count] := by
  intro hbound
  have hlength : ((paddedSealing count).body bellTokens).length = 9 := rfl
  have hsplit : splitToken (reframedToken count) = some (_, (paddedSealing count).mac bellTokens) :=
    splitToken_encode _ (by simp; omega)
  have hpresentable : Presentable bellTokens [paddedSealing count] (reframedToken count) := by
    intro body mac hparts input hmac
    rw [hsplit, Option.some.injEq, Prod.mk.injEq] at hparts
    exact ⟨paddedSealing count, List.mem_singleton_self _, hparts.2.symm⟩
  have hmac : (paddedSealing count).mac bellTokens = bellTokens.mac none (paddedSealing count).request.binding
      (List.replicate count 97 ++ (bigEndian 4 9 ++ (paddedSealing count).body bellTokens)) :=
    macInput_paddedWorkspace hcount _ _ hlength
  have htake : (List.replicate count 97 ++
      (bigEndian 4 9 ++ (paddedSealing count).body bellTokens)).take 8 = List.replicate 8 97 := by
    rw [List.take_append_of_le_length (by simpa using hlarge), List.take_replicate, Nat.min_eq_left hlarge]
  have hopen : bellTokens.openToken 0 none (paddedSealing count).request.binding (reframedToken count) =
      .ok ((List.replicate count 97 ++
        (bigEndian 4 9 ++ (paddedSealing count).body bellTokens)).drop 8) := by
    simp only [MACPageTokens.openToken, hsplit, ← hmac, htake]
    rw [if_neg (not_not.2 rfl), if_neg (by decide)]
  obtain ⟨sealing, hsealing, hbody, -⟩ := hbound _ hpresentable 0 none _ admitted_bellWakes _ hopen
  rw [List.mem_singleton.1 hsealing, hsplit, Option.map_some, Option.some.injEq] at hbody
  have hlengths := congrArg List.length hbody
  simp only [List.length_append, List.length_replicate, length_bigEndian, hlength] at hlengths
  omega

/-- A workspace whose length does not fit into 32 bits lets its tokens be read under no workspace. -/
theorem not_bound_hugeWorkspace : Function.Injective bellTokens.hmac ∧
    (paddedSealing (2 ^ 32 - 4)).request.Admitted ∧ ¬ Bound bellTokens [paddedSealing (2 ^ 32 - 4)] :=
  ⟨Function.injective_id, admitted_bellWakes, not_bound_paddedSealing (by norm_num) (by norm_num)⟩

end Temporaless.Console
