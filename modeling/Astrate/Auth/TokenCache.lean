import Astrate.GoLib.Map
import Astrate.GoLib.Time

/-!
# The token cache

`Verify` of `internal/auth/jwt.go` and the cache in front of it (`internal/auth/cache.go`). A token is cached under
the hash of its text and of the list of keys, joined by NUL octets.

The text of a token comes from the client. One that contains a NUL octet can end in a copy of the first keys of the
list, and is then found under the hash of the shorter token with the longer list (`nul_token_reuses_entry`). Without
NUL octets the joined text determines the token and the keys, and `cache_transparent` says that the cache changes
nothing but the error of a token that has expired since it was cached.

The parser of tokens, the hash and the LRU cache are libraries. `Libraries.Lawful` says what is asked of them.
-/

set_option autoImplicit false

namespace Astrate.Auth

open Astrate.GoLib

/-! ## Verification -/

/-- Why an entry of the key list is refused. -/
inductive KeyError where
  | unsupported
  | pkix
  | pkcs1
  | noBlock
  deriving DecidableEq, Repr

/-- The errors of `ParsePublicKeysPEM`, `Verify` and `Cache.Verify`, around those of the parser. -/
inductive AuthError (ε : Type) where
  /-- `auth: key entry %d: %w`. -/
  | keyEntry (i : Nat) (err : KeyError)
  /-- `ErrNoRealmKeys`. -/
  | noRealmKeys
  /-- `auth: invalid token: %w`. -/
  | invalidToken (err : ε)
  /-- `ErrNoKeyMatched`, with the last error. -/
  | noKeyMatched (err : Option ε)
  /-- `auth: cached token: %w`, of `jwt.ErrTokenExpired`. -/
  | cachedToken
  deriving DecidableEq, Repr

/-- The claims of a token: the time of expiry and the authorization claims. -/
structure Claims (γ : Type) where
  expiresAt : Option Time
  grants : γ

/-- A token; the cache does not look at its grants, which are left as they are in the claims. -/
structure Token (γ : Type) where
  expiresAt : Option Time
  grants : γ
  deriving DecidableEq

/-- `newToken`. -/
def newToken {γ : Type} (c : Claims γ) : Token γ := ⟨c.expiresAt, c.grants⟩

/-- The token is expired: `now` is not before `exp`. -/
def Token.expired {γ : Type} (tok : Token γ) (now : Time) : Bool :=
  tok.expiresAt.any fun exp => !decide (now.nanos < exp.nanos)

/-- The libraries, with keys `κ`, errors `ε` of the parser, hashes `δ` and caches `σ`. -/
structure Libraries (κ γ ε δ σ : Type) where
  /-- The types and contents of the blocks that `pem.Decode` finds one after the other. -/
  pemBlocks : Bytes → List (Bytes × Bytes)
  /-- `x509.ParsePKIXPublicKey`: a key, and whether it is of RSA or ECDSA. -/
  parsePKIX : Bytes → Option (κ × Bool)
  /-- `x509.ParsePKCS1PublicKey`. -/
  parsePKCS1 : Bytes → Option κ
  /-- `ParseWithClaims` at an instant, with the one key that the key function returns. -/
  parseWithClaims : Time → Bytes → κ → Except ε (Claims γ)
  /-- `errors.Is(err, jwt.ErrTokenSignatureInvalid)`. -/
  signatureInvalid : ε → Bool
  /-- `sha256`. -/
  sha : Bytes → δ
  /-- `lru.Get`, with the cache afterwards. -/
  get : σ → δ → Option (Token γ) × σ
  /-- `lru.Add`. -/
  add : σ → δ → Token γ → σ
  /-- `lru.Remove`. -/
  remove : σ → δ → σ

section

variable {κ γ ε δ σ : Type} (p : Libraries κ γ ε δ σ)

/-- `parsePublicKeyBlock`. -/
def parsePublicKeyBlock (block : Bytes × Bytes) : Except KeyError κ :=
  if block.1 = utf8 "PUBLIC KEY" then
    match p.parsePKIX block.2 with
    | none => .error .pkix
    | some (key, supported) => if supported then .ok key else .error .unsupported
  else if block.1 = utf8 "RSA PUBLIC KEY" then
    match p.parsePKCS1 block.2 with
    | none => .error .pkcs1
    | some key => .ok key
  else .error .unsupported

/-- `ParsePublicKeysPEM`, from the entry with the index `i` on. -/
def parsePublicKeysFrom (i : Nat) : List Bytes → Except (AuthError ε) (List κ)
  | [] => .ok []
  | entry :: rest =>
    match (p.pemBlocks entry).mapM (parsePublicKeyBlock p) with
    | .error err => .error (.keyEntry i err)
    | .ok [] => .error (.keyEntry i .noBlock)
    | .ok keys => do
        let more ← parsePublicKeysFrom (i + 1) rest
        pure (keys ++ more)

/-- The loop of `Verify`, with `lastErr`. -/
def verifyLoop (now : Time) (tokenString : Bytes) (lastErr : Option ε) : List κ → Except (AuthError ε) (Token γ)
  | [] => .error (.noKeyMatched lastErr)
  | key :: keys =>
    match p.parseWithClaims now tokenString key with
    | .ok claims => .ok (newToken claims)
    | .error err =>
      if p.signatureInvalid err then verifyLoop now tokenString (some err) keys else .error (.invalidToken err)

/-- `Verify`. -/
def verify (now : Time) (tokenString : Bytes) (keys : List κ) : Except (AuthError ε) (Token γ) :=
  if keys.isEmpty then .error .noRealmKeys else verifyLoop p now tokenString none keys

/-- A call of `Cache.Verify` and its instant. -/
structure VerifyCall where
  tokenString : Bytes
  keysPEM : List Bytes
  now : Time
  deriving DecidableEq

/-- The keys parsed and the token verified, without a cache. -/
def verifyPEM (c : VerifyCall) : Except (AuthError ε) (Token γ) := do
  let keys ← parsePublicKeysFrom p 0 c.keysPEM
  verify p c.now c.tokenString keys

/-! ## The cache -/

/-- What `cacheKey` hashes. -/
def cacheInput (tokenString : Bytes) (keysPEM : List Bytes) : Bytes :=
  tokenString ++ keysPEM.flatMap fun k => 0 :: k

/-- `cacheKey`. -/
def cacheKey (c : VerifyCall) : δ := p.sha (cacheInput c.tokenString c.keysPEM)

/-- `Cache.Verify`: the result and the cache afterwards. -/
def cacheVerify (lru : σ) (c : VerifyCall) : Except (AuthError ε) (Token γ) × σ :=
  match p.get lru (cacheKey p c) with
  | (some tok, lru) =>
    if tok.expired c.now then (.error .cachedToken, p.remove lru (cacheKey p c)) else (.ok tok, lru)
  | (none, lru) =>
    match verifyPEM p c with
    | .error err => (.error err, lru)
    | .ok tok => (.ok tok, p.add lru (cacheKey p c) tok)

/-- The results of a sequence of calls. -/
def verifyAll (lru : σ) : List VerifyCall → List (Except (AuthError ε) (Token γ))
  | [] => []
  | c :: cs => (cacheVerify p lru c).1 :: verifyAll (cacheVerify p lru c).2 cs

end

/-- No NUL octet in the token and in the keys. -/
def VerifyCall.nulFree (c : VerifyCall) : Bool :=
  !c.tokenString.contains 0 && c.keysPEM.all fun k => !k.contains 0

/-! ## The encoding -/

theorem cacheInput_nil (tokenString : Bytes) : cacheInput tokenString [] = tokenString :=
  List.append_nil tokenString

theorem cacheInput_cons (tokenString k : Bytes) (keysPEM : List Bytes) :
    cacheInput tokenString (k :: keysPEM) = tokenString ++ 0 :: cacheInput k keysPEM := by
  simp [cacheInput]

/-- Texts without NUL octets can be told from their concatenation. -/
theorem cacheInput_inj {token token' : Bytes} {keys keys' : List Bytes} (htoken : 0 ∉ token)
    (hkeys : ∀ k ∈ keys, 0 ∉ k) (htoken' : 0 ∉ token') (hkeys' : ∀ k ∈ keys', 0 ∉ k)
    (h : cacheInput token keys = cacheInput token' keys') : token = token' ∧ keys = keys' := by
  induction keys generalizing token token' keys' with
  | nil =>
    cases keys' with
    | nil =>
      rw [cacheInput_nil, cacheInput_nil] at h
      exact ⟨h, rfl⟩
    | cons k' keys' =>
      rw [cacheInput_cons, cacheInput_nil] at h
      exact absurd (h ▸ List.mem_append_right _ List.mem_cons_self) htoken
  | cons k keys ih =>
    cases keys' with
    | nil =>
      rw [cacheInput_cons, cacheInput_nil] at h
      exact absurd (h ▸ List.mem_append_right _ List.mem_cons_self) htoken'
    | cons k' keys' =>
      -- the first NUL ends the token on both sides
      rw [cacheInput_cons, cacheInput_cons] at h
      have hcut := (cutByte_eq_some_iff 0 _ _ _).2 ⟨h.symm, htoken⟩
      rw [(cutByte_eq_some_iff 0 _ _ _).2 ⟨rfl, htoken'⟩, Option.some.injEq, Prod.mk.injEq] at hcut
      obtain ⟨rfl, hrest⟩ := hcut
      rw [List.forall_mem_cons] at hkeys hkeys'
      obtain ⟨rfl, rfl⟩ := ih hkeys.1 hkeys.2 hkeys'.1 hkeys'.2 hrest.symm
      exact ⟨rfl, rfl⟩

theorem VerifyCall.nulFree_iff (c : VerifyCall) :
    c.nulFree = true ↔ 0 ∉ c.tokenString ∧ ∀ k ∈ c.keysPEM, 0 ∉ k := by
  simp [VerifyCall.nulFree]

/-! ## Transparency -/

section

variable {κ γ ε δ σ : Type} {p : Libraries κ γ ε δ σ} {holds : σ → δ → Token γ → Prop}

/-- What the libraries are asked for. A token stays valid until it expires, and a signature that does not match
never will; the hash has no collisions; a cache holds only what was added to it. -/
structure Libraries.Lawful (p : Libraries κ γ ε δ σ) (holds : σ → δ → Token γ → Prop) : Prop where
  valid : ∀ {t₀ t : Time} {text key claims}, p.parseWithClaims t₀ text key = .ok claims → t₀.nanos ≤ t.nanos →
    (newToken claims).expired t = false → p.parseWithClaims t text key = .ok claims
  signature : ∀ {t₀ t : Time} {text key err}, p.parseWithClaims t₀ text key = .error err →
    p.signatureInvalid err = true → t₀.nanos ≤ t.nanos →
      ∃ err', p.parseWithClaims t text key = .error err' ∧ p.signatureInvalid err' = true
  sha : Function.Injective p.sha
  get : ∀ {c k tok}, (p.get c k).1 = some tok → holds c k tok
  kept : ∀ {c k k' tok}, holds (p.get c k).2 k' tok → holds c k' tok
  add : ∀ {c k k' tok tok'}, holds (p.add c k tok) k' tok' → k' = k ∧ tok' = tok ∨ holds c k' tok'
  remove : ∀ {c k k' tok}, holds (p.remove c k) k' tok → holds c k' tok

theorem verifyLoop_later (hp : p.Lawful holds) {t₀ t : Time} {text : Bytes} {last last' : Option ε} {keys : List κ}
    {tok : Token γ} (h : verifyLoop p t₀ text last keys = .ok tok) (hle : t₀.nanos ≤ t.nanos)
    (hfresh : tok.expired t = false) : verifyLoop p t text last' keys = .ok tok := by
  induction keys generalizing last last' with
  | nil => cases h
  | cons key keys ih =>
    rw [verifyLoop] at h ⊢
    cases hparse : p.parseWithClaims t₀ text key with
    | ok claims =>
      rw [hparse] at h
      cases h
      rw [hp.valid hparse hle hfresh]
    | error err =>
      rw [hparse] at h
      dsimp only at h
      split_ifs at h with hsig
      obtain ⟨err', hparse', hsig'⟩ := hp.signature hparse hsig hle
      rw [hparse']
      dsimp only
      rw [if_pos hsig']
      exact ih h

/-- `b` comes after `a`, and does not find its token expired. -/
def Follows (p : Libraries κ γ ε δ σ) (a b : VerifyCall) : Prop :=
  a.now.nanos ≤ b.now.nanos ∧ (a.tokenString = b.tokenString → a.keysPEM = b.keysPEM →
    ((verifyPEM p a).toOption.any fun tok => tok.expired b.now) = false)

instance : DecidableRel (Follows p) := fun a b => by
  unfold Follows
  infer_instance

theorem Follows.fresh {a b : VerifyCall} {tok : Token γ} (h : Follows p a b) (htoken : a.tokenString = b.tokenString)
    (hkeys : a.keysPEM = b.keysPEM) (hverify : verifyPEM p a = .ok tok) : tok.expired b.now = false := by
  simpa [hverify, Except.toOption] using h.2 htoken hkeys

/-- A verified token is verified again by a call that follows. -/
theorem verifyPEM_follows (hp : p.Lawful holds) {a b : VerifyCall} {tok : Token γ} (h : verifyPEM p a = .ok tok)
    (hfollows : Follows p a b) (htoken : a.tokenString = b.tokenString) (hkeys : a.keysPEM = b.keysPEM) :
    verifyPEM p b = .ok tok := by
  have hfresh := hfollows.fresh htoken hkeys h
  obtain ⟨keys, hparse, hverify⟩ := bind_eq_ok_iff.1 h
  refine bind_eq_ok_iff.2 ⟨keys, hkeys ▸ hparse, ?_⟩
  rw [verify] at hverify ⊢
  split_ifs at hverify ⊢ with hempty
  exact verifyLoop_later hp (htoken ▸ hverify) hfollows.1 hfresh

/-- Every cached token was verified by a call without NUL octets that these calls follow. -/
def Sound (p : Libraries κ γ ε δ σ) (holds : σ → δ → Token γ → Prop) (lru : σ) (calls : List VerifyCall) : Prop :=
  ∀ k tok, holds lru k tok → ∃ c : VerifyCall, c.nulFree = true ∧ k = cacheKey p c ∧ verifyPEM p c = .ok tok ∧
    ∀ c' ∈ calls, Follows p c c'

/-- One call returns what an uncached one does, and keeps the cache sound for the next calls. -/
theorem cacheVerify_eq (hp : p.Lawful holds) {lru : σ} {c : VerifyCall} {cs : List VerifyCall}
    (hsound : Sound p holds lru (c :: cs)) (hnul : c.nulFree = true) (hfollow : ∀ c' ∈ cs, Follows p c c') :
    (cacheVerify p lru c).1 = verifyPEM p c ∧ Sound p holds (cacheVerify p lru c).2 cs := by
  have hget : Sound p holds (p.get lru (cacheKey p c)).2 cs := fun k tok h => by
    obtain ⟨c₀, hnul₀, hkey, hverify, hlater⟩ := hsound k tok (hp.kept h)
    exact ⟨c₀, hnul₀, hkey, hverify, fun c' hc' => hlater c' (List.mem_cons_of_mem _ hc')⟩
  rw [cacheVerify]
  cases hhit : p.get lru (cacheKey p c) with
  | mk hit lru' =>
    rw [hhit] at hget
    cases hit with
    | some tok =>
      -- the entry was made for this token and these keys
      obtain ⟨c₀, hnul₀, hkey, hverify, hlater⟩ := hsound _ _ (hp.get (by rw [hhit]))
      obtain ⟨htoken, hkeys⟩ := c.nulFree_iff.1 hnul
      obtain ⟨htoken₀, hkeys₀⟩ := c₀.nulFree_iff.1 hnul₀
      obtain ⟨htok, hpem⟩ := cacheInput_inj htoken hkeys htoken₀ hkeys₀ (hp.sha hkey)
      have hfollows := hlater c List.mem_cons_self
      dsimp only
      rw [hfollows.fresh htok.symm hpem.symm hverify]
      exact ⟨(verifyPEM_follows hp hverify hfollows htok.symm hpem.symm).symm, hget⟩
    | none =>
      cases hverify : verifyPEM p c with
      | error err => exact ⟨rfl, hget⟩
      | ok tok =>
        refine ⟨rfl, fun k tok' h => ?_⟩
        rcases hp.add h with ⟨rfl, rfl⟩ | h
        · exact ⟨c, hnul, rfl, hverify, hfollow⟩
        · exact hget k tok' h

theorem verifyAll_eq (hp : p.Lawful holds) {lru : σ} {calls : List VerifyCall} (hsound : Sound p holds lru calls)
    (hnul : ∀ c ∈ calls, c.nulFree = true) (hfollow : calls.Pairwise (Follows p)) :
    verifyAll p lru calls = calls.map (verifyPEM p) := by
  induction calls generalizing lru with
  | nil => rfl
  | cons c cs ih =>
    rw [List.pairwise_cons] at hfollow
    rw [List.forall_mem_cons] at hnul
    obtain ⟨heq, hnext⟩ := cacheVerify_eq hp hsound hnul.1 hfollow.1
    rw [verifyAll, heq, ih hnext hnul.2 hfollow.2, List.map_cons]

/-- Along any sequence of calls without NUL octets, at times that do not go back, every result is that of an
uncached verification, provided no call repeats one whose token has expired since. -/
theorem cache_transparent (hp : p.Lawful holds) {lru : σ} (hempty : ∀ k tok, ¬ holds lru k tok)
    {calls : List VerifyCall} (hnul : ∀ c ∈ calls, c.nulFree = true) (hfollow : calls.Pairwise (Follows p)) :
    verifyAll p lru calls = calls.map (verifyPEM p) :=
  verifyAll_eq hp (fun k tok h => (hempty k tok h).elim) hnul hfollow

end

/-- Keys that are their own PEM text, a token with the signature of the first one, and a cache of any size. -/
def demo : Libraries Bytes Unit Bool Bytes (List (Bytes × Token Unit)) where
  pemBlocks := fun entry => [(utf8 "RSA PUBLIC KEY", entry)]
  parsePKIX := fun _ => none
  parsePKCS1 := some
  parseWithClaims := fun now token key =>
    if token = utf8 "token" then
      if key = utf8 "first" then if now.nanos < 100 then .ok ⟨some ⟨100⟩, ()⟩ else .error false else .error true
    else .error false
  signatureInvalid := id
  sha := id
  get := fun c k => (c.lookup k, c)
  add := mapSet
  remove := fun c k => c.filter fun e => e.1 ≠ k

/-- What the list holds. -/
def Listed (c : List (Bytes × Token Unit)) (k : Bytes) (tok : Token Unit) : Prop := (k, tok) ∈ c

theorem lawful_demo : demo.Lawful Listed where
  valid := by
    intro t₀ t text key claims h hle hfresh
    simp only [demo] at h ⊢
    split_ifs at h ⊢
    · exact h
    · cases h
      simp only [newToken, Token.expired, Option.any_some, Bool.not_eq_false', decide_eq_true_eq] at hfresh
      contradiction
  signature := by
    intro t₀ t text key err h hsig _
    simp only [demo] at h ⊢
    split_ifs at h ⊢
    all_goals cases h
    all_goals first | exact ⟨_, rfl, rfl⟩ | cases hsig
  sha := Function.injective_id
  get := mem_of_lookup
  kept := id
  add := fun h => (mem_mapSet h).symm.imp_left Prod.mk.inj
  remove := List.mem_of_mem_filter

/-- A token is verified, found in the cache, and refused under other keys. -/
theorem cache_transparent_rotation :
    let call (keys : List Bytes) (now : Int) : VerifyCall := ⟨utf8 "token", keys, ⟨now⟩⟩
    let both := [utf8 "first", utf8 "second"]
    let calls := [call both 1, call both 2, call [utf8 "second"] 3, call both 99]
    verifyAll demo [] calls = calls.map (verifyPEM demo) :=
  cache_transparent lawful_demo (fun _ _ => List.not_mem_nil) (by decide +kernel) (by decide +kernel)

/-- The first key is gone from the list. The token with the text of that key appended is found in the cache and
accepted, while it is not even well formed; and a token that has expired in the cache gives another error. -/
theorem nul_token_reuses_entry :
    let token := utf8 "token"
    let calls : List VerifyCall :=
      [⟨token, [utf8 "first", utf8 "second"], ⟨1⟩⟩, ⟨token ++ 0 :: utf8 "first", [utf8 "second"], ⟨2⟩⟩,
        ⟨token, [utf8 "first", utf8 "second"], ⟨100⟩⟩]
    verifyAll demo [] calls = [.ok ⟨some ⟨100⟩, ()⟩, .ok ⟨some ⟨100⟩, ()⟩, .error .cachedToken] ∧
      calls.map (verifyPEM demo) =
        [.ok ⟨some ⟨100⟩, ()⟩, .error (.invalidToken false), .error (.invalidToken false)] := by
  decide +kernel

end Astrate.Auth
