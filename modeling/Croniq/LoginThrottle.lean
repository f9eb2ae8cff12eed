import Croniq.SignIn

/-!
# Guards of the login endpoints

Which address a sign-in counts for, and which codes were spent.
-/

namespace Croniq.Auth

open Config DecimalText KeyedTables List

inductive IpAddr
  | v4 (bits : BitVec 32)
  | v6 (bits : BitVec 128)
deriving DecidableEq

namespace IpAddr

def width : IpAddr → Nat
  | .v4 _ => 32
  | .v6 _ => 128

/-- An IPv4 address written as an IPv6 one is the IPv4 address. -/
def toCanonical : IpAddr → IpAddr
  | .v4 bits => .v4 bits
  | .v6 bits => if bits >>> 32 = 0xffff#128 then .v4 (bits.setWidth 32) else .v6 bits

theorem toCanonical_toCanonical (ip : IpAddr) : ip.toCanonical.toCanonical = ip.toCanonical := by
  cases ip with
  | v4 bits => rfl
  | v6 bits => by_cases mapped : bits >>> 32 = 0xffff#128 <;> simp [toCanonical,mapped]

/-- The addresses are of one family and share their first bits. -/
def Agrees (length : Nat) : IpAddr → IpAddr → Prop
  | .v4 first, .v4 second => ∀ position < length, first.getMsbD position = second.getMsbD position
  | .v6 first, .v6 second => ∀ position < length, first.getMsbD position = second.getMsbD position
  | _, _ => False

end IpAddr

structure Network where
  addr : IpAddr
  length : Nat
  fits : length ≤ addr.width
  canonical : addr.toCanonical = addr

/-- The addresses of texts, alone and with a port. -/
structure AddrText where
  ip : String → Option IpAddr
  socket : String → Option IpAddr

def checkedShl {width : Nat} (bits : BitVec width) (amount : Nat) : Option (BitVec width) :=
  if amount < width then some (bits <<< amount) else none

def networkMask (width length : Nat) : BitVec width :=
  (checkedShl (BitVec.allOnes width) (width - length)).getD 0

def Network.contains (net : Network) (ip : IpAddr) : Bool :=
  match net.addr, ip with
  | .v4 own, .v4 bits => own &&& networkMask 32 net.length = bits &&& networkMask 32 net.length
  | .v6 own, .v6 bits => own &&& networkMask 128 net.length = bits &&& networkMask 128 net.length
  | _, _ => false

namespace TrustedProxies

variable (text : AddrText)

def parseEntry (entry : String) : Except String Network :=
  let (addr, length) := match splitOnce '/' entry.toList with
    | some (addr, length) => (addr, some length)
    | none => (entry.toList, none)
  match text.ip (.ofList addr) with
  | none => .error ("CRONIQ_TRUSTED_PROXIES: '" ++ entry ++ "' is not an IP address or CIDR range")
  | some addr =>
    match length.elim (some addr.toCanonical.width) (parseUnsigned 8) with
    | some length =>
      if fits : length ≤ addr.toCanonical.width then
        .ok ⟨addr.toCanonical,length,fits,addr.toCanonical_toCanonical⟩
      else .error ("CRONIQ_TRUSTED_PROXIES: '" ++ entry ++ "' has an invalid prefix length")
    | none => .error ("CRONIQ_TRUSTED_PROXIES: '" ++ entry ++ "' has an invalid prefix length")

def parse (spec : String) : Except String (List Network) :=
  (commaParts spec).mapM (parseEntry text)

def contains (nets : List Network) (ip : IpAddr) : Bool :=
  nets.any (·.contains ip.toCanonical)

def parseHop (hop : String) : Option IpAddr :=
  ((text.ip hop).or (text.socket hop)).map IpAddr.toCanonical

variable (nets : List Network)

/-- The hops from the nearest one on. -/
def walk (client : IpAddr) : List String → IpAddr
  | [] => client
  | hop :: hops =>
    match parseHop text hop with
    | none => client
    | some ip => if contains nets ip then walk ip hops else ip

def hops (forwardedFor : List String) : List String :=
  forwardedFor.flatMap commaParts

def clientIp (peer : IpAddr) (forwardedFor : List String) : IpAddr :=
  if contains nets peer then walk text nets peer (hops forwardedFor).reverse else peer

/-- The walk does not go beyond the hop. -/
def Stops (hop : String) : Prop :=
  ∀ ip, parseHop text hop = some ip → contains nets ip = false

variable {text nets}

theorem walk_append {hops : List String} (stops : ∃ hop ∈ hops, Stops text nets hop)
    (client : IpAddr) (more : List String) :
    walk text nets client (hops ++ more) = walk text nets client hops := by
  induction hops generalizing client with
  | nil =>
    obtain ⟨hop,isHop,-⟩ := stops
    cases isHop
  | cons hop hops ih =>
    rw [cons_append,walk,walk]
    split
    · rfl
    rename_i ip isIp
    split
    · rename_i trusted
      obtain ⟨other,isOther,stop⟩ := stops
      rcases mem_cons.mp isOther with rfl | later
      · rw [stop ip isIp] at trusted
        cases trusted
      · exact ih ⟨other,later,stop⟩ ip
    · rfl

theorem getMsbD_networkMask {width length : Nat} (fits : length ≤ width) (position : Nat) :
    (networkMask width length).getMsbD position = decide (position < length) := by
  unfold networkMask checkedShl
  split
  · rw [Option.getD_some,BitVec.getMsbD_shiftLeft,BitVec.getMsbD_allOnes]
    exact decide_eq_decide.mpr (by omega)
  · -- A shift by the whole width is refused, and the mask of no bits is zero.
    have noBits : ¬position < length := by omega
    simp [noBits]

theorem and_networkMask_eq_iff {width length : Nat} (fits : length ≤ width)
    (first second : BitVec width) :
    first &&& networkMask width length = second &&& networkMask width length ↔
      ∀ position < length, first.getMsbD position = second.getMsbD position := by
  constructor
  · intro same position inside
    have bit := congrArg (·.getMsbD position) same
    simpa [getMsbD_networkMask fits,inside] using bit
  · intro agree
    refine BitVec.eq_of_getMsbD_eq fun position _ => ?_
    rw [BitVec.getMsbD_and,BitVec.getMsbD_and,getMsbD_networkMask fits]
    by_cases inside : position < length
    · rw [agree position inside]
    · simp [inside]

theorem network_contains_iff (net : Network) (ip : IpAddr) :
    net.contains ip = true ↔ net.addr.Agrees net.length ip := by
  obtain ⟨addr,length,fits,-⟩ := net
  cases addr <;> cases ip
  case v4.v4 | v6.v6 => exact decide_eq_true_iff.trans (and_networkMask_eq_iff fits _ _)
  case v4.v6 | v6.v4 => simp [Network.contains,IpAddr.Agrees]

/-- Hops that a client puts in front of what the proxies wrote do not move its address, and a
network holds the addresses that share its first bits. -/
theorem clientIp_not_chosen (text : AddrText) (nets : List Network) :
    (∀ peer front forwarded whole, hops whole = front ++ hops forwarded →
      contains nets peer = false ∨ (∃ hop ∈ hops forwarded, Stops text nets hop) →
      clientIp text nets peer whole = clientIp text nets peer forwarded) ∧
    ∀ ip, contains nets ip = true ↔ ∃ net ∈ nets, net.addr.Agrees net.length ip.toCanonical := by
  constructor
  · intro peer front forwarded whole put guarded
    unfold clientIp
    split
    · rename_i trusted
      rcases guarded with untrusted | ⟨hop,isHop,stop⟩
      · rw [untrusted] at trusted
        cases trusted
      · rw [put,reverse_append]
        exact walk_append ⟨hop,mem_reverse.mpr isHop,stop⟩ peer _
    · rfl
  · intro ip
    simp [contains,network_contains_iff]

theorem clientIp_behind_proxy : let text : AddrText :=
      ⟨fun hop => if hop = "203.0.113.7" then some (.v4 0xcb007107) else none,fun _ => none⟩
    let nets : List Network := [⟨.v4 0x0a000000,8,by decide,rfl⟩]
    clientIp text nets (.v4 0x0a000001) ["6.6.6.6, 203.0.113.7"] =
      clientIp text nets (.v4 0x0a000001) ["203.0.113.7"] := by
  refine (clientIp_not_chosen _ _).1 _ ["6.6.6.6"] _ _ (by decide)
    (.inr ⟨"203.0.113.7",by decide,fun ip isIp => ?_⟩)
  obtain rfl : IpAddr.v4 0xcb007107 = ip := Option.some.inj isIp
  decide

end TrustedProxies

structure StepEntry where
  userId : String
  (step lastSeen : Nat)

/-- Times are nanoseconds of the monotonic clock. -/
def stepEntryTtl : Nat := 300 * 1000000000

def pruneThreshold : Nat := 1024

def StepEntry.expired (entry : StepEntry) (now : Nat) : Bool :=
  stepEntryTtl ≤ now - entry.lastSeen

def pruneSteps (map : Table StepEntry.userId) (now : Nat) : Table StepEntry.userId :=
  if pruneThreshold < map.rows.length then map.deleteWhere (·.expired now) else map

def consumeTotpStep (map : Table StepEntry.userId) (userId : String) (step now : Nat) :
    Bool × Table StepEntry.userId :=
  let map := pruneSteps map now
  let fresh := match map.find? userId with
    | some entry => entry.step < step || entry.expired now
    | none => true
  let row : StepEntry := { userId, step, lastSeen := now }
  (fresh, bif fresh then (map.insert row).getD (map.updateWhere (·.userId = row.userId)
    (fun entry => { entry with step, lastSeen := now }) fun _ => rfl) else map)

/-- The two clocks are a fixed time apart. -/
def unixStep (boot now : Nat) : Nat :=
  (boot + now) / 1000000000 / 30

/-- A secret that the checker refuses counts as a wrong code. -/
def verifyCodeWithStep (totp : String → Option (Nat → String)) (secret code : String)
    (currentStep : Nat) : Option Nat :=
  if code.utf8ByteSize ≠ 6 ∨ code.toList.all Char.isDigit = false then none
  else
    (totp secret).bind fun generate =>
      (range' (currentStep - 1) (currentStep + 2 - (currentStep - 1))).find? fun step =>
        generate (step * 30) = code

structure CodeLogin where
  userId : String
  /-- The stored secret, if it can be unwrapped. -/
  secret : Option String
  code : String
  now : Nat

section Spending

variable (boot : Nat) (totp : String → Option (Nat → String))

/-- The time step that a code is accepted for. -/
def CodeLogin.verify (login : CodeLogin) (map : Table StepEntry.userId) :
    Except CodeCheck Nat × Table StepEntry.userId :=
  match login.secret with
  | none => (.error .unreadable, map)
  | some secret =>
    match verifyCodeWithStep totp secret login.code (unixStep boot login.now) with
    | none => (.error .rejected, map)
    | some step =>
      let (fresh, map) := consumeTotpStep map login.userId step login.now
      (if fresh then .ok step else .error .rejected, map)

/-- The steps that a user's codes are accepted for. -/
def acceptedSteps (userId : String) (map : Table StepEntry.userId) : List CodeLogin → List Nat
  | [] => []
  | login :: logins =>
    let (answer, next) := login.verify boot totp map
    let later := acceptedSteps userId next logins
    match answer with
    | .ok step => if login.userId = userId then step :: later else later
    | .error _ => later

/-- No step below the floor is accepted: the codes of the time are not below it, or an entry refuses
them. -/
def Guarded (userId : String) (floor now : Nat) (map : Table StepEntry.userId) : Prop :=
  floor ≤ unixStep boot now - 1 ∨
    ∃ entry, map.find? userId = some entry ∧ floor ≤ entry.step + 1 ∧
      entry.step ≤ unixStep boot entry.lastSeen + 1

variable {boot totp} {userId : String} {floor step now later : Nat}
  {map : Table StepEntry.userId}

section

variable (guarded : Guarded boot userId floor now map)
include guarded

theorem Guarded.onward (onward : now ≤ later) : Guarded boot userId floor later map := by
  have advances : unixStep boot now ≤ unixStep boot later := by
    unfold unixStep
    omega
  exact guarded.imp_left fun inTime => by omega

/-- When an entry has expired, its step has left the window. -/
theorem Guarded.unexpired :
    floor ≤ unixStep boot now - 1 ∨ ∃ entry, map.find? userId = some entry ∧
      entry.expired now = false ∧ floor ≤ entry.step + 1 ∧
      entry.step ≤ unixStep boot entry.lastSeen + 1 := by
  rcases guarded with inTime | ⟨entry,found,covers,dated⟩
  · exact .inl inTime
  cases expired : entry.expired now with
  | false => exact .inr ⟨entry,found,expired,covers,dated⟩
  | true =>
    have late : 300 * 1000000000 ≤ now - entry.lastSeen := of_decide_eq_true expired
    unfold unixStep at dated ⊢
    exact .inl (by omega)

theorem Guarded.prune : Guarded boot userId floor now (pruneSteps map now) := by
  refine guarded.unexpired.imp_right ?_
  rintro ⟨entry,found,unexpired,rest⟩
  refine ⟨entry,?_,rest⟩
  unfold pruneSteps
  split
  · obtain ⟨isEntry,isUser⟩ := map.find?_eq_some_iff.mp found
    refine (Table.find?_eq_some_iff _).mpr ⟨mem_filter.mpr ⟨isEntry,?_⟩,isUser⟩
    exact congrArg not unexpired
  · exact found

end

theorem find?_consumeTotpStep (owner : String) :
    (consumeTotpStep map owner step now).2.find? userId =
      if (consumeTotpStep map owner step now).1 = true ∧ owner = userId then
        some ⟨owner,step,now⟩ else (pruneSteps map now).find? userId := by
  unfold consumeTotpStep
  generalize pruneSteps map now = kept
  dsimp only
  rw [Bool.cond_eq_ite]
  split
  · rename_i isFresh
    have seen := kept.find?_upsert id ⟨owner,step,now⟩
      (fun entry => { entry with step, lastSeen := now }) (fun _ => rfl)
      (fun old sameKey => by cases old; cases sameKey; rfl) userId
    simp only [Option.map_id,id_eq] at seen
    simpa only [isFresh,true_and] using seen
  · rename_i stale
    rw [if_neg fun consumed => stale consumed.1]

/-- A step that is consumed is not below the floor and lifts it; else it stays. -/
theorem Guarded.consume (guarded : Guarded boot userId floor now map) (owner : String)
    (inWindow : unixStep boot now - 1 ≤ step ∧ step ≤ unixStep boot now + 1) :
    if (consumeTotpStep map owner step now).1 = true ∧ owner = userId then
      floor ≤ step ∧ Guarded boot userId (step + 1) now (consumeTotpStep map owner step now).2
    else Guarded boot userId floor now (consumeTotpStep map owner step now).2 := by
  unfold Guarded
  rw [find?_consumeTotpStep]
  split
  · rename_i consumed
    obtain ⟨isFresh,rfl⟩ := consumed
    refine ⟨?_,.inr ⟨_,rfl,le_rfl,inWindow.2⟩⟩
    rcases guarded.prune.unexpired with inTime | ⟨entry,found,unexpired,covers,-⟩
    · omega
    · simp [consumeTotpStep,found,unexpired] at isFresh
      omega
  · exact guarded.prune

theorem window_of_verifyCodeWithStep {secret code : String} {current : Nat}
    (verified : verifyCodeWithStep totp secret code current = some step) :
    current - 1 ≤ step ∧ step ≤ current + 1 := by
  unfold verifyCodeWithStep at verified
  split at verified
  · cases verified
  · obtain ⟨generate,-,found⟩ := Option.bind_eq_some_iff.mp verified
    have inRange := mem_range'_1.mp (mem_of_find?_eq_some found)
    omega

theorem acceptedSteps_of_guarded {logins : List CodeLogin}
    (ordered : logins.Pairwise (·.now ≤ ·.now)) (onward : ∀ login ∈ logins, now ≤ login.now)
    (guarded : Guarded boot userId floor now map) :
    (∀ step ∈ acceptedSteps boot totp userId map logins, floor ≤ step) ∧
      (acceptedSteps boot totp userId map logins).Pairwise (· < ·) := by
  induction logins generalizing map floor now with
  | nil => simp [acceptedSteps]
  | cons login logins ih =>
    obtain ⟨before,ordered⟩ := pairwise_cons.mp ordered
    have stays := guarded.onward (onward login mem_cons_self)
    unfold acceptedSteps CodeLogin.verify
    cases login.secret with
    | none => exact ih ordered before stays
    | some secret =>
    dsimp only
    cases verified : verifyCodeWithStep totp secret login.code (unixStep boot login.now) with
    | none => exact ih ordered before stays
    | some step =>
    have consumed := stays.consume login.userId (window_of_verifyCodeWithStep verified)
    dsimp only
    generalize consumeTotpStep map login.userId step login.now = outcome at consumed ⊢
    obtain ⟨fresh,next⟩ := outcome
    cases fresh with
    | false => exact ih ordered before (by simpa using consumed)
    | true =>
      by_cases isUser : login.userId = userId
      · simp only [isUser,and_self,if_true] at consumed ⊢
        obtain ⟨later,sorted⟩ := ih ordered before consumed.2
        rw [forall_mem_cons,pairwise_cons]
        refine ⟨⟨consumed.1,fun other isLater => ?_⟩,later,sorted⟩
        have above := later other isLater
        omega
      · simp only [isUser,and_false,if_false] at consumed ⊢
        exact ih ordered before consumed

/-- The time steps of a user's accepted codes increase; none is accepted twice. -/
theorem acceptedSteps_increase (boot : Nat) (totp : String → Option (Nat → String))
    (userId : String) (logins : List CodeLogin) (ordered : logins.Pairwise (·.now ≤ ·.now)) :
    (acceptedSteps boot totp userId (.empty _) logins).Pairwise (· < ·) :=
  (acceptedSteps_of_guarded ordered (fun _ _ => Nat.zero_le _) (.inl (Nat.zero_le _))).2

/-- Of two codes the second is tried twice. -/
theorem acceptedSteps_increase_of_two :
    let generate (seconds : Nat) := String.ofList (digits 6 (seconds / 30 * 8191))
    let logins : List CodeLogin := [⟨"ada",some "seed","008191",30000000000⟩,
      ⟨"ada",some "seed","016382",60000000000⟩,⟨"ada",some "seed","016382",61000000000⟩]
    let steps := acceptedSteps 0 (fun _ => some generate) "ada" (.empty _) logins
    steps = [1,2] ∧ steps.Pairwise (· < ·) :=
  ⟨by decide,acceptedSteps_increase _ _ _ _ (by decide)⟩

end Spending

end Croniq.Auth
