import Temporaless.Errors
import Temporaless.Framework.Loop

/-!
# Key sets that are read again

`JWKS` of the console keeps the keys of a URL and reads them again when they are old or when a key id is
asked for that they do not have. What a read returns is an input of each call.
-/

namespace Temporaless.Console

abbrev KeySet (Key : Type) := String → Option Key

/-- `keys` is `none` for the nil map that the source starts with. -/
structure JWKS (Key : Type) where
  url : String
  file : String
  minRefresh : Int
  maxAge : Int
  keys : Option (KeySet Key)
  fetched : Int

variable {Key : Type}

def newJWKS (url file : String) : Except Err (JWKS Key) :=
  if (url = "") = (file = "") then .error (errorf "jwks: set exactly one of url and file")
  else .ok
    { url := url, file := file, minRefresh := 30 * nanosPerSecond, maxAge := 600 * nanosPerSecond,
      keys := none, fetched := zeroTime }

/-- `Time.Sub`, which saturates at the range of `time.Duration`. -/
def timeSub (t u : Int) : Int := max minInt64 (min maxInt64 (t - u))

theorem le_sub_of_le_timeSub {t u d : Int} (hpos : 0 ≤ d) (h : d ≤ timeSub t u) : u + d ≤ t := by
  simp only [timeSub, minInt64, maxInt64] at h
  omega

/-- A call of `Key`: the clock while it holds the lock, and what `load` would return. -/
structure KeyCall (Key : Type) where
  keyID : String
  now : Int
  load : Except Err (KeySet Key)

/-- What a call returns, whether it called `load`, and the source after it. -/
structure KeyReturn (Key : Type) where
  result : Except Err Key
  loaded : Bool
  jwks : JWKS Key

def unknownKeyID : Err := errorf "unknown key id"

def lookupKey (found : Option Key) (err : Err) : Except Err Key :=
  match found with
  | some key => .ok key
  | none => .error err

namespace JWKS

variable (jwks : JWKS Key)

def held (keyID : String) : Option Key := jwks.keys.bind fun keys => keys keyID

def stale (now : Int) : Bool := jwks.keys.isNone || decide (jwks.maxAge < timeSub now jwks.fetched)

def recent (now : Int) : Bool := decide (timeSub now jwks.fetched < jwks.minRefresh)

def key (call : KeyCall Key) : KeyReturn Key :=
  let known := jwks.held call.keyID
  let stale := jwks.stale call.now
  if known.isSome && !stale then ⟨lookupKey known unknownKeyID, false, jwks⟩
  else if !stale && jwks.recent call.now then ⟨.error unknownKeyID, false, jwks⟩
  else
    match call.load with
    | .error err => ⟨lookupKey known err, true, jwks⟩
    | .ok keys =>
      ⟨lookupKey (keys call.keyID) unknownKeyID, true, { jwks with keys := some keys, fetched := call.now }⟩

/-- A call together with the source that it found and what it returned. -/
structure Happening (Key : Type) where
  before : JWKS Key
  call : KeyCall Key
  answer : KeyReturn Key

/-- The calls one after the other, as the mutex lets them run. -/
def history (jwks : JWKS Key) : List (KeyCall Key) → List (Happening Key)
  | [] => []
  | call :: calls => ⟨jwks, call, jwks.key call⟩ :: history (jwks.key call).jwks calls

def Happening.Refetch (h : Happening Key) : Prop :=
  h.answer.loaded = true ∧ h.before.held h.call.keyID = none

def Happening.KeepsKnown (h : Happening Key) : Prop :=
  ∀ key err, h.before.held h.call.keyID = some key → h.answer.result = .error err →
    h.answer.loaded = true ∧ ∃ keys, h.call.load = .ok keys ∧ keys h.call.keyID = none

/-- Calls for unknown ids read the keys at most once in `minRefresh`, and held ids stay usable. -/
def RefetchesRarely (calls : List (KeyCall Key)) : Prop :=
  (jwks.history calls).Pairwise (fun h h' => h.Refetch → h'.Refetch →
    h.call.now + jwks.minRefresh ≤ h'.call.now) ∧
  ∀ h ∈ jwks.history calls, h.KeepsKnown

def refetches (now : Int) : Bool := jwks.stale now || !jwks.recent now

section Step

variable {jwks} {call : KeyCall Key}

theorem loaded_key (hunknown : jwks.held call.keyID = none) :
    (jwks.key call).loaded = jwks.refetches call.now := by
  simp only [key, refetches, hunknown]
  cases jwks.stale call.now <;> cases jwks.recent call.now <;> cases call.load <;> rfl

theorem jwks_key (jwks : JWKS Key) (call : KeyCall Key) : (jwks.key call).jwks = jwks ∨
    ∃ keys, call.load = .ok keys ∧
      (jwks.key call).jwks = { jwks with keys := some keys, fetched := call.now } := by
  simp only [key]
  cases hload : call.load with
  | error err =>
    left
    split_ifs <;> rfl
  | ok keys =>
    split_ifs
    · left; rfl
    · left; rfl
    · right; exact ⟨keys, rfl, rfl⟩

theorem jwks_key_of_loaded {keys : KeySet Key} (hload : call.load = .ok keys)
    (hloaded : (jwks.key call).loaded = true) :
    (jwks.key call).jwks = { jwks with keys := some keys, fetched := call.now } := by
  simp only [key, hload] at hloaded ⊢
  split_ifs at hloaded ⊢
  rfl

theorem keepsKnown_key : (⟨jwks, call, jwks.key call⟩ : Happening Key).KeepsKnown := by
  intro held err hheld herr
  simp only [key] at hheld herr ⊢
  rw [hheld] at herr ⊢
  cases hstale : jwks.stale call.now with
  | false => simp [hstale, lookupKey] at herr
  | true =>
    cases hload : call.load with
    | error err' => simp [hstale, hload, lookupKey] at herr
    | ok keys =>
      refine ⟨by simp, keys, rfl, ?_⟩
      cases hfound : keys call.keyID with
      | none => rfl
      | some found => simp [hstale, hload, hfound, lookupKey] at herr

end Step

section Runs

variable {jwks} {calls : List (KeyCall Key)}

theorem keepsKnown_history : ∀ h ∈ jwks.history calls, h.KeepsKnown := by
  induction calls generalizing jwks with
  | nil => simp [history]
  | cons call calls ih =>
    intro h hmem
    rcases List.mem_cons.1 hmem with rfl | hmem
    · exact keepsKnown_key
    · exact ih h hmem

def Limited (jwks : JWKS Key) : Prop := 0 ≤ jwks.minRefresh ∧ jwks.minRefresh ≤ jwks.maxAge

/-- While a set is held, a call for an unknown id waits for `minRefresh` after the last read. -/
theorem Limited.le_of_refetches (hlimited : jwks.Limited) (hkeys : jwks.keys.isSome) {now : Int}
    (h : jwks.refetches now = true) : jwks.fetched + jwks.minRefresh ≤ now := by
  have hnone : jwks.keys.isNone = false := by simpa using hkeys
  apply le_sub_of_le_timeSub hlimited.1
  simp only [refetches, stale, recent, hnone, Bool.false_or, Bool.or_eq_true, Bool.not_eq_true',
    decide_eq_true_eq, decide_eq_false_iff_not, not_lt] at h
  have := hlimited.2
  omega

/-- The induction is on the calls: each read moves `fetched` forward, and what follows is measured from
there. -/
theorem Limited.le_of_refetch (hlimited : jwks.Limited) (hkeys : jwks.keys.isSome)
    (hclock : calls.Pairwise fun call call' => call.now ≤ call'.now)
    (hstart : ∀ call ∈ calls, jwks.fetched ≤ call.now) :
    ∀ h ∈ jwks.history calls, h.Refetch → jwks.fetched + jwks.minRefresh ≤ h.call.now := by
  induction calls generalizing jwks with
  | nil => simp [history]
  | cons call calls ih =>
    intro h hmem hrefetch
    rw [List.pairwise_cons] at hclock
    rw [List.forall_mem_cons] at hstart
    rcases List.mem_cons.1 hmem with rfl | hmem
    · apply hlimited.le_of_refetches hkeys
      rw [← loaded_key hrefetch.2]
      exact hrefetch.1
    · rcases jwks_key jwks call with hsame | ⟨keys, -, hnext⟩
      · rw [hsame] at hmem
        exact ih hlimited hkeys hclock.2 hstart.2 h hmem hrefetch
      · rw [hnext] at hmem
        have hlimited' : Limited { jwks with keys := some keys, fetched := call.now } := hlimited
        have hle := ih hlimited' rfl hclock.2 hclock.1 h hmem hrefetch
        exact le_trans (Int.add_le_add_right hstart.1 _) hle

theorem minRefresh_key (jwks : JWKS Key) (call : KeyCall Key) :
    (jwks.key call).jwks.minRefresh = jwks.minRefresh := by
  rcases jwks_key jwks call with hsame | ⟨keys, -, hnext⟩
  · rw [hsame]
  · rw [hnext]

theorem Limited.key (hlimited : jwks.Limited) (call : KeyCall Key) : (jwks.key call).jwks.Limited := by
  rcases jwks_key jwks call with hsame | ⟨keys, -, hnext⟩
  · rw [hsame]
    exact hlimited
  · rw [hnext]
    exact hlimited

/-- The read that the call would make succeeds, if the id is not held. -/
def Happening.FetchSucceeds (h : Happening Key) : Prop :=
  h.before.held h.call.keyID = none → h.before.refetches h.call.now = true → ∃ keys, h.call.load = .ok keys

theorem Limited.refetchesRarely (hlimited : jwks.Limited)
    (hclock : calls.Pairwise fun call call' => call.now ≤ call'.now)
    (hfetch : ∀ h ∈ jwks.history calls, h.FetchSucceeds) : jwks.RefetchesRarely calls := by
  refine ⟨?_, keepsKnown_history⟩
  induction calls generalizing jwks with
  | nil => exact List.Pairwise.nil
  | cons call calls ih =>
    rw [history, List.forall_mem_cons] at hfetch
    rw [List.pairwise_cons] at hclock
    rw [history, List.pairwise_cons]
    constructor
    · intro h' hmem hrefetch hrefetch'
      have hrefetches : jwks.refetches call.now = true := by
        rw [← loaded_key hrefetch.2]
        exact hrefetch.1
      obtain ⟨keys, hload⟩ := hfetch.1 hrefetch.2 hrefetches
      rw [jwks_key_of_loaded hload hrefetch.1] at hmem
      have hlimited' : Limited { jwks with keys := some keys, fetched := call.now } := hlimited
      exact hlimited'.le_of_refetch rfl hclock.2 hclock.1 h' hmem hrefetch'
    · have hrest := ih (hlimited.key call) hclock.2 hfetch.2
      rwa [minRefresh_key] at hrest

theorem limited_of_newJWKS {url file : String} (hnew : newJWKS url file = .ok jwks) : jwks.Limited := by
  rw [newJWKS, Loop.guard_eq_ok] at hnew
  obtain rfl := Except.ok.inj hnew.2
  exact ⟨show (0 : Int) ≤ 30 * nanosPerSecond by decide,
    show 30 * nanosPerSecond ≤ 600 * nanosPerSecond by decide⟩

end Runs

end JWKS

open JWKS

/-- With a clock that does not go back, the reads for unknown ids are `minRefresh` apart as long as none of
them fails. -/
theorem newJWKS_refetchesRarely {url : String} {jwks : JWKS Key} (hnew : newJWKS url "" = .ok jwks)
    {calls : List (KeyCall Key)} (hclock : calls.Pairwise fun call call' => call.now ≤ call'.now)
    (hfetch : ∀ h ∈ jwks.history calls, h.FetchSucceeds) : jwks.RefetchesRarely calls :=
  (limited_of_newJWKS hnew).refetchesRarely hclock hfetch

def keysURL : String := "issuer/keys"

/-- A source over a URL that has read nothing yet. -/
def freshJWKS : JWKS Unit :=
  { url := keysURL, file := "", minRefresh := 30 * nanosPerSecond, maxAge := 600 * nanosPerSecond, keys := none,
    fetched := zeroTime }

theorem newJWKS_keysURL : newJWKS keysURL "" = .ok freshJWKS := by
  rw [newJWKS, if_neg (by simp [keysURL])]
  rfl

/-- Half a minute later the set is read again, for an id that it did not have. -/
def rotationCalls : List (KeyCall Unit) :=
  [⟨"new", 0, .ok fun keyID => if keyID = "old" then some () else none⟩,
    ⟨"new", 30 * nanosPerSecond, .ok fun keyID => if keyID = "new" then some () else none⟩]

theorem newJWKS_refetchesRarely_rotation : newJWKS keysURL "" = .ok freshJWKS ∧
    freshJWKS.RefetchesRarely rotationCalls := by
  refine ⟨newJWKS_keysURL, newJWKS_refetchesRarely newJWKS_keysURL ?_ ?_⟩
  · simp [rotationCalls, nanosPerSecond]
  · intro h hmem _ _
    simp only [rotationCalls, history, List.mem_cons, List.not_mem_nil, or_false] at hmem
    rcases hmem with rfl | rfl
    · exact ⟨_, rfl⟩
    · exact ⟨_, rfl⟩

def failedCall : KeyCall Unit := ⟨"new", 0, .error (errorf "jwks fetch: HTTP 503")⟩

/-- A read that fails leaves `fetched` as it was, so the next call reads at once. -/
theorem not_refetchesRarely_failedCalls : newJWKS keysURL "" = .ok freshJWKS ∧
    [failedCall, failedCall].Pairwise (fun call call' => call.now ≤ call'.now) ∧
    ¬ freshJWKS.RefetchesRarely [failedCall, failedCall] := by
  refine ⟨newJWKS_keysURL, by simp, ?_⟩
  intro h
  have hpair := (List.pairwise_cons.1 h.1).1 _ (List.mem_singleton.2 rfl) ⟨rfl, rfl⟩ ⟨rfl, rfl⟩
  exact absurd hpair (by decide)

section Revocation

variable {jwks : JWKS Key} {keyID : String} {revoked : Int}

/-- What is held of a key that was revoked is old, if there is anything. -/
def Outdated (jwks : JWKS Key) (keyID : String) (revoked : Int) : Prop :=
  jwks.held keyID = none ∨ jwks.fetched < revoked

theorem Outdated.key (h : Outdated jwks keyID revoked) {call : KeyCall Key}
    (hrevoked : revoked ≤ call.now → ∀ keys, call.load = .ok keys → keys keyID = none) :
    Outdated (jwks.key call).jwks keyID revoked := by
  rcases jwks_key jwks call with hsame | ⟨keys, hload, hnext⟩
  · rw [hsame]
    exact h
  · rw [hnext]
    rcases lt_or_ge call.now revoked with hearly | hlate
    · exact .inr hearly
    · exact .inl (hrevoked hlate keys hload)

theorem maxAge_key (jwks : JWKS Key) (call : KeyCall Key) :
    (jwks.key call).jwks.maxAge = jwks.maxAge := by
  rcases jwks_key jwks call with hsame | ⟨keys, -, hnext⟩
  · rw [hsame]
  · rw [hnext]

theorem stale_of_fetched (hmax : jwks.maxAge < maxInt64) {now : Int}
    (h : jwks.fetched + jwks.maxAge < now) :
    jwks.stale now = true := by
  have hold : jwks.maxAge < timeSub now jwks.fetched := by
    simp only [timeSub, minInt64, maxInt64] at hmax ⊢
    omega
  simp [stale, hold]

theorem Outdated.refused (h : Outdated jwks keyID revoked)
    (hage : 0 ≤ jwks.maxAge ∧ jwks.maxAge < maxInt64)
    {call : KeyCall Key} (hkey : call.keyID = keyID) (hlate : revoked + jwks.maxAge < call.now)
    {keys : KeySet Key}
    (hload : call.load = .ok keys) (hgone : keys keyID = none) :
    ∃ err, (jwks.key call).result = .error err := by
  subst hkey
  have hrefused : jwks.held call.keyID = none ∨ jwks.stale call.now = true :=
    h.imp_right fun hfetched => stale_of_fetched hage.2 (by omega)
  simp only [JWKS.key, hload, hgone]
  rcases hrefused with hheld | hstale
  · rw [hheld]
    cases jwks.stale call.now <;> cases jwks.recent call.now <;> exact ⟨unknownKeyID, rfl⟩
  · rw [hstale]
    cases jwks.held call.keyID <;> exact ⟨unknownKeyID, rfl⟩

theorem Outdated.history (h : Outdated jwks keyID revoked)
    (hage : 0 ≤ jwks.maxAge ∧ jwks.maxAge < maxInt64)
    {calls : List (KeyCall Key)} (hrevoked : ∀ call ∈ calls, revoked ≤ call.now →
      ∀ keys, call.load = .ok keys → keys keyID = none) :
    ∀ e ∈ jwks.history calls, e.call.keyID = keyID → revoked + jwks.maxAge < e.call.now →
      (∃ keys, e.call.load = .ok keys) → ∃ err, e.answer.result = .error err := by
  induction calls generalizing jwks with
  | nil => simp [JWKS.history]
  | cons call calls ih =>
    intro e hmem hkey hlate hloads
    obtain ⟨keys, hload⟩ := hloads
    rw [List.forall_mem_cons] at hrevoked
    rcases List.mem_cons.1 hmem with rfl | hmem
    · exact h.refused hage hkey hlate hload (hrevoked.1 (by dsimp only at hlate; omega) keys hload)
    · rw [← maxAge_key jwks call] at hage hlate
      exact ih (h.key hrevoked.1) hage hrevoked.2 e hmem hkey hlate ⟨keys, hload⟩

end Revocation

/-- A key that no set has had from some moment on is refused once `maxAge` has passed, by every call that can
read the keys. -/
theorem newJWKS_refuses_revoked {url file : String} {jwks : JWKS Key}
    (hnew : newJWKS url file = .ok jwks)
    {calls : List (KeyCall Key)} {keyID : String} {revoked : Int}
    (hrevoked : ∀ call ∈ calls, revoked ≤ call.now → ∀ keys, call.load = .ok keys → keys keyID = none) :
    ∀ e ∈ jwks.history calls, e.call.keyID = keyID → revoked + jwks.maxAge < e.call.now →
      (∃ keys, e.call.load = .ok keys) → ∃ err, e.answer.result = .error err := by
  rw [newJWKS, Loop.guard_eq_ok] at hnew
  obtain rfl := Except.ok.inj hnew.2
  apply Outdated.history (.inl rfl) _ hrevoked
  simp only [nanosPerSecond, maxInt64]
  omega

/-- The old key is still served a second after it has gone, from the set that is held. -/
def revokedCalls : List (KeyCall Unit) :=
  [⟨"old", 0, .ok fun keyID => if keyID = "old" then some () else none⟩,
    ⟨"old", nanosPerSecond, .ok fun _ => none⟩, ⟨"old", 602 * nanosPerSecond, .ok fun _ => none⟩]

theorem newJWKS_refuses_revoked_old :
    ∃ e ∈ freshJWKS.history revokedCalls, e.call.now = 602 * nanosPerSecond ∧
    ∃ err, e.answer.result = .error err := by
  have hrevoked : ∀ call ∈ revokedCalls, 1 ≤ call.now → ∀ keys, call.load = .ok keys → keys "old" = none := by
    intro call hcall hlate keys hload
    simp only [revokedCalls, List.mem_cons, List.not_mem_nil, or_false] at hcall
    rcases hcall with rfl | rfl | rfl
    · cases hlate
    · rw [← Except.ok.inj hload]
    · rw [← Except.ok.inj hload]
  have hlast := List.getLast_mem (List.cons_ne_nil _ _ : freshJWKS.history revokedCalls ≠ [])
  exact ⟨_, hlast, rfl, newJWKS_refuses_revoked newJWKS_keysURL hrevoked _ hlast rfl (by decide) ⟨_, rfl⟩⟩

end Temporaless.Console
