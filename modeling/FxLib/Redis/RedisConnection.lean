import FxLib.Lib.Transition

/-!
# The connection to Redis

`FxRedisConnection`. What the calls of the client library give is part of the label of a step; a
step that would go through a null pointer is not there.
-/

/-- `redisReply`; a status and an error are texts. -/
inductive RedisReply where
  | string (str : List UInt8)
  | array (element : List RedisReply)
  | integer (integer : Int)
  | nil
  | status (str : List UInt8)
  | error (str : List UInt8)

/-- `type == REDIS_REPLY_ERROR`. -/
def RedisReply.isError : RedisReply → Bool
  | .error _ => true
  | _ => false

/-- `authenticated` says that `AUTH` has been answered on it, and not by an error. -/
structure RedisContext where
  err : Bool
  authenticated : Bool
  deriving DecidableEq

/-- What the library gives in one call: `err` of a new context, and the replies to `AUTH` and to the
command. Each may be `NULL`. -/
structure RedisAnswers where
  connect : Option Bool
  auth : Option RedisReply
  command : Option RedisReply

structure FxRedisConnection where
  pRedisContext : Option RedisContext
  szHost : List UInt8
  szPassword : List UInt8
  dwPort : Nat
  /-- The commands other than `AUTH`, each with the password and the context it was sent on. -/
  sent : List (List UInt8 × RedisContext)

namespace FxRedisConnection

def new : FxRedisConnection := ⟨none, [], [], 0, []⟩

def close (c : FxRedisConnection) : FxRedisConnection := { c with pRedisContext := none }

def reConnect (answers : RedisAnswers) (c : FxRedisConnection) :
    Option (Bool × FxRedisConnection) :=
  match answers.connect with
  | none => none
  | some true => some (false, c.close)
  | some false =>
    let c := { c with pRedisContext := some ⟨false, false⟩ }
    if c.szPassword = [] then some (true, c)
    else
      match answers.auth with
      | none => none
      -- the context stays
      | some reply =>
        if reply.isError then some (false, c)
        else some (true, { c with pRedisContext := some ⟨false, true⟩ })

def connect (szHost : List UInt8) (dwPort : Nat) (szPassword : List UInt8)
    (answers : RedisAnswers) (c : FxRedisConnection) : Option (Bool × FxRedisConnection) :=
  { c with szHost := szHost, dwPort := dwPort, szPassword := szPassword }.reConnect answers

/-- What `ReConnect` returns is not asked for. -/
def checkConnection (answers : RedisAnswers) (c : FxRedisConnection) :
    Option (Bool × FxRedisConnection) :=
  match c.pRedisContext with
  | some _ => some (true, c)
  | none => (c.reConnect answers).map fun r => (r.2.pRedisContext.isSome, r.2)

/-- `redisCommand` on the context that is there. -/
def redisCommand (answers : RedisAnswers) (c : FxRedisConnection) :
    Option RedisReply × FxRedisConnection :=
  match c.pRedisContext with
  | none => (none, c)
  | some context =>
    (answers.command, { c with sent := c.sent ++ [(c.szPassword, context)] })

/-- `REDIS_REPLY_ERROR`. -/
def replyError : Int := 6

/-- `Query(const char*)`. -/
def query (answers : RedisAnswers) (c : FxRedisConnection) : Option (Int × FxRedisConnection) := do
  let (ok, c) ← c.checkConnection answers
  let (preply, c) := if ok then c.redisCommand answers else (none, c)
  match preply with
  | none => return (-1, c.close)
  | some preply => return (if preply.isError then replyError else 0, c)

/-- `Query(const char*, FxRedisReader&)`, with the reply that the reader has. -/
def queryReader (answers : RedisAnswers) (reply : Option RedisReply) (c : FxRedisConnection) :
    Option (Int × Option RedisReply × FxRedisConnection) := do
  let (ok, c) ← c.checkConnection answers
  if ok = false then return (-1, reply, c)
  let (reply, c) := c.redisCommand answers
  match reply with
  | none => return (-1, none, c.close)
  | some reply => return if reply.isError then (replyError, none, c) else (0, some reply, c)

inductive Call where
  | connect (szHost : List UInt8) (dwPort : Nat) (szPassword : List UInt8)
      (answers : RedisAnswers)
  | reConnect (answers : RedisAnswers)
  | close
  | query (answers : RedisAnswers)
  | queryReader (answers : RedisAnswers) (reply : Option RedisReply)

def step (c : FxRedisConnection) : Call → Option FxRedisConnection
  | .connect szHost dwPort szPassword answers =>
    (c.connect szHost dwPort szPassword answers).map (·.2)
  | .reConnect answers => (c.reConnect answers).map (·.2)
  | .close => some c.close
  | .query answers => (c.query answers).map (·.2)
  | .queryReader answers reply => (c.queryReader answers reply).map (·.2.2)

/-- Connected without an error and, where there is a password, authenticated. -/
def Ready (szPassword : List UInt8) (context : RedisContext) : Prop :=
  context.err = false ∧ (szPassword ≠ [] → context.authenticated = true)

instance (szPassword : List UInt8) (context : RedisContext) :
    Decidable (Ready szPassword context) :=
  inferInstanceAs (Decidable (_ ∧ _))

/-- The context is NULL or ready, and every command went out on one that was. -/
structure Sound (c : FxRedisConnection) : Prop where
  context : ∀ context ∈ c.pRedisContext, Ready c.szPassword context
  sent : ∀ e ∈ c.sent, Ready e.1 e.2

/-- The call goes through no null pointer, and the connection is sound behind it. -/
def Keeps (c : FxRedisConnection) (l : Call) : Prop := ∃ c', c.step l = some c' ∧ c'.Sound

/-- A new context is allocated and, where it has no error and there is a password, `AUTH` is
answered, and not by an error. -/
def Accepts (szPassword : List UInt8) (answers : RedisAnswers) : Prop :=
  answers.connect = some true ∨
    answers.connect = some false ∧
      (szPassword ≠ [] → ∃ reply, answers.auth = some reply ∧ reply.isError = false)

/-- Where the call connects, Redis accepts it. -/
def Accepted (c : FxRedisConnection) : Call → Prop
  | .connect _ _ szPassword answers => Accepts szPassword answers
  | .reConnect answers => Accepts c.szPassword answers
  | .close => True
  | .query answers | .queryReader answers _ =>
    c.pRedisContext = none → Accepts c.szPassword answers

variable {c c' : FxRedisConnection} {answers : RedisAnswers} {ok : Bool}

theorem Sound.close (h : c.Sound) : c.close.Sound := ⟨by simp [FxRedisConnection.close], h.sent⟩

/-- Where `ReConnect` returns, the password and what was sent are the same, and no context is there
but a new one. -/
theorem reConnect_same (hconn : c.reConnect answers = some (ok, c')) :
    c'.szPassword = c.szPassword ∧ c'.sent = c.sent ∧
      (c'.pRedisContext = none ∨ ∃ authenticated, c'.pRedisContext = some ⟨false, authenticated⟩ ∧
        answers.connect = some false) := by
  rw [reConnect] at hconn
  rcases hanswer : answers.connect with _ | _ | _
  · simp [hanswer] at hconn
  · simp only [hanswer] at hconn
    split_ifs at hconn
    · obtain ⟨-, rfl⟩ := Prod.mk.inj (Option.some.inj hconn)
      exact ⟨rfl, rfl, .inr ⟨_, rfl, rfl⟩⟩
    · cases hauth : answers.auth with
      | none => simp [hauth] at hconn
      | some reply =>
        simp only [hauth] at hconn
        split_ifs at hconn
        · obtain ⟨-, rfl⟩ := Prod.mk.inj (Option.some.inj hconn)
          exact ⟨rfl, rfl, .inr ⟨_, rfl, rfl⟩⟩
        · obtain ⟨-, rfl⟩ := Prod.mk.inj (Option.some.inj hconn)
          exact ⟨rfl, rfl, .inr ⟨_, rfl, rfl⟩⟩
  · simp only [hanswer] at hconn
    obtain ⟨-, rfl⟩ := Prod.mk.inj (Option.some.inj hconn)
    exact ⟨rfl, rfl, .inl rfl⟩

/-- `ReConnect` returns with a ready context, or with none, exactly where Redis accepts it. -/
theorem reConnect_ready_iff :
    (∃ ok c', c.reConnect answers = some (ok, c') ∧
        ∀ context ∈ c'.pRedisContext, Ready c'.szPassword context) ↔
      Accepts c.szPassword answers := by
  rw [reConnect, Accepts]
  rcases hanswer : answers.connect with _ | _ | _
  · simp
  · by_cases hpassword : c.szPassword = []
    · simp [hpassword, Ready]
    · cases hauth : answers.auth with
      | none => simp [hpassword]
      | some reply => by_cases herror : reply.isError = true <;> simp [hpassword, herror, Ready]
  · simp [FxRedisConnection.close]

/-- `CheckConnection` says whether there is a context. -/
theorem checkConnection_same (hcheck : c.checkConnection answers = some (ok, c')) :
    ok = c'.pRedisContext.isSome ∧ c'.szPassword = c.szPassword ∧ c'.sent = c.sent := by
  rw [checkConnection] at hcheck
  cases hcontext : c.pRedisContext with
  | some context =>
    rw [hcontext] at hcheck
    obtain ⟨rfl, rfl⟩ := Prod.mk.inj (Option.some.inj hcheck)
    simp [hcontext]
  | none =>
    simp only [hcontext] at hcheck
    obtain ⟨⟨ok', c''⟩, hconn, heq⟩ := Option.map_eq_some_iff.mp hcheck
    obtain ⟨rfl, rfl⟩ := Prod.mk.inj heq
    obtain ⟨hpassword, hsent, -⟩ := reConnect_same hconn
    exact ⟨rfl, hpassword, hsent⟩

/-- The same for `CheckConnection` of a sound connection. -/
theorem Sound.checkConnection_iff (h : c.Sound) :
    (∃ ok c', c.checkConnection answers = some (ok, c') ∧
        ∀ context ∈ c'.pRedisContext, Ready c'.szPassword context) ↔
      (c.pRedisContext = none → Accepts c.szPassword answers) := by
  rw [checkConnection]
  cases hcontext : c.pRedisContext with
  | some context =>
    refine iff_of_true ⟨true, c, rfl, ?_⟩ (by simp)
    exact h.context
  | none =>
    rw [← reConnect_ready_iff]
    constructor
    · rintro ⟨ok, c', hcheck, hready⟩ -
      obtain ⟨⟨ok', c''⟩, hconn, heq⟩ := Option.map_eq_some_iff.mp hcheck
      obtain ⟨rfl, rfl⟩ := Prod.mk.inj heq
      exact ⟨ok', c'', hconn, hready⟩
    · intro hall
      obtain ⟨ok, c', hconn, hready⟩ := hall rfl
      exact ⟨c'.pRedisContext.isSome, c', by simp [hconn], hready⟩

/-- Without a context no command is sent. -/
theorem redisCommand_none (hcontext : c.pRedisContext = none) :
    c.redisCommand answers = (none, c) := by
  simp only [redisCommand, hcontext]

theorem redisCommand_some {context : RedisContext} (hcontext : c.pRedisContext = some context) :
    c.redisCommand answers =
      (answers.command, { c with sent := c.sent ++ [(c.szPassword, context)] }) := by
  simp only [redisCommand, hcontext]

/-- A command that is sent tells whether the context was ready. -/
theorem redisCommand_sound_iff (answers : RedisAnswers) (hsent : ∀ e ∈ c.sent, Ready e.1 e.2) :
    (∀ e ∈ (c.redisCommand answers).2.sent, Ready e.1 e.2) ↔
      ∀ context ∈ c.pRedisContext, Ready c.szPassword context := by
  cases hcontext : c.pRedisContext with
  | none =>
    rw [redisCommand_none hcontext]
    exact iff_of_true hsent (by simp)
  | some context =>
    rw [redisCommand_some hcontext]
    constructor
    · rintro hall _ ⟨⟩
      exact hall (c.szPassword, context) (by simp)
    · intro hready e he
      rcases List.mem_append.mp he with he | he
      · exact hsent e he
      · rw [List.mem_singleton.mp he]
        exact hready context rfl

theorem redisCommand_context (answers : RedisAnswers) (c : FxRedisConnection) :
    (c.redisCommand answers).2.pRedisContext = c.pRedisContext ∧
      (c.redisCommand answers).2.szPassword = c.szPassword := by
  cases hcontext : c.pRedisContext with
  | none => simp [redisCommand_none hcontext, hcontext]
  | some context => simp [redisCommand_some hcontext, hcontext]

/-- Both overloads of `Query` send their command behind `CheckConnection`, and then at most close
the connection. -/
theorem Sound.query_iff (h : c.Sound) {f : Bool × FxRedisConnection → FxRedisConnection}
    (hf : ∀ c, f (c.pRedisContext.isSome, c) = (c.redisCommand answers).2 ∨
      f (c.pRedisContext.isSome, c) = (c.redisCommand answers).2.close) :
    (∃ c', (c.checkConnection answers).map f = some c' ∧ c'.Sound) ↔
      (c.pRedisContext = none → Accepts c.szPassword answers) := by
  rw [← h.checkConnection_iff]
  constructor
  · rintro ⟨c', hmap, hsound⟩
    obtain ⟨⟨ok, c''⟩, hcheck, rfl⟩ := Option.map_eq_some_iff.mp hmap
    obtain ⟨rfl, -, hsent⟩ := checkConnection_same hcheck
    refine ⟨_, c'', hcheck, (redisCommand_sound_iff answers (hsent ▸ h.sent)).mp ?_⟩
    rcases hf c'' with heq | heq
    · exact (heq ▸ hsound).sent
    · have hclosed := hsound.sent
      rw [heq] at hclosed
      exact hclosed
  · rintro ⟨ok, c', hcheck, hready⟩
    obtain ⟨rfl, -, hsent⟩ := checkConnection_same hcheck
    refine ⟨_, by rw [hcheck, Option.map_some], ?_⟩
    have hsound : (c'.redisCommand answers).2.Sound := by
      refine ⟨?_, (redisCommand_sound_iff answers (hsent ▸ h.sent)).mpr hready⟩
      rw [(redisCommand_context answers c').1, (redisCommand_context answers c').2]
      exact hready
    rcases hf c' with heq | heq
    · exact heq ▸ hsound
    · exact heq ▸ hsound.close

theorem Sound.reConnect_iff (hsent : ∀ e ∈ c.sent, Ready e.1 e.2) :
    (∃ c', (c.reConnect answers).map (·.2) = some c' ∧ c'.Sound) ↔
      Accepts c.szPassword answers := by
  rw [← reConnect_ready_iff]
  constructor
  · rintro ⟨c', hmap, hsound⟩
    obtain ⟨⟨ok, c''⟩, hconn, rfl⟩ := Option.map_eq_some_iff.mp hmap
    exact ⟨ok, c'', hconn, hsound.context⟩
  · rintro ⟨ok, c', hconn, hready⟩
    exact ⟨c', by rw [hconn, Option.map_some], hready, (reConnect_same hconn).2.1 ▸ hsent⟩

/-- What `Query(const char*)` leaves behind `CheckConnection`. -/
def queried (answers : RedisAnswers) (r : Bool × FxRedisConnection) : FxRedisConnection :=
  match if r.1 then r.2.redisCommand answers else (none, r.2) with
  | (none, c) => c.close
  | (some _, c) => c

def queriedReader (answers : RedisAnswers) (r : Bool × FxRedisConnection) : FxRedisConnection :=
  if r.1 = false then r.2
  else
    match r.2.redisCommand answers with
    | (none, c) => c.close
    | (some _, c) => c

theorem step_query (answers : RedisAnswers) :
    c.step (.query answers) = (c.checkConnection answers).map (queried answers) := by
  simp only [step, query]
  cases c.checkConnection answers with
  | none => rfl
  | some r =>
    simp only [Option.bind_eq_bind, Option.bind_some, Option.map_some, queried]
    rcases (if r.1 = true then r.2.redisCommand answers else (none, r.2)) with ⟨_ | reply, c'⟩ <;>
      rfl

theorem step_queryReader (answers : RedisAnswers) (reply : Option RedisReply) :
    c.step (.queryReader answers reply) =
      (c.checkConnection answers).map (queriedReader answers) := by
  simp only [step, queryReader]
  cases c.checkConnection answers with
  | none => rfl
  | some r =>
    simp only [Option.bind_eq_bind, Option.bind_some, Option.map_some, queriedReader]
    split_ifs with hok
    · rfl
    · rcases r.2.redisCommand answers with ⟨_ | reply, c'⟩
      · rfl
      · by_cases herror : reply.isError = true <;> simp [herror]

/-- A call on a sound connection keeps it so exactly where Redis accepts what it has to. -/
theorem Sound.keeps_iff (h : c.Sound) (l : Call) : Keeps c l ↔ Accepted c l := by
  cases l with
  | connect szHost dwPort szPassword answers => exact reConnect_iff h.sent
  | reConnect answers => exact reConnect_iff h.sent
  | close => exact iff_of_true ⟨c.close, rfl, h.close⟩ trivial
  | query answers =>
    rw [Keeps, step_query]
    refine h.query_iff fun c => ?_
    cases hcontext : c.pRedisContext with
    | none => exact .inr (by simp [queried, redisCommand_none hcontext])
    | some context =>
      cases hcommand : answers.command with
      | none => exact .inr (by simp [queried, redisCommand_some hcontext, hcommand])
      | some reply => exact .inl (by simp [queried, redisCommand_some hcontext, hcommand])
  | queryReader answers reply =>
    rw [Keeps, step_queryReader]
    refine h.query_iff fun c => ?_
    cases hcontext : c.pRedisContext with
    | none => exact .inl (by simp [queriedReader, redisCommand_none hcontext])
    | some context =>
      cases hcommand : answers.command with
      | none => exact .inr (by simp [queriedReader, redisCommand_some hcontext, hcommand])
      | some reply => exact .inl (by simp [queriedReader, redisCommand_some hcontext, hcommand])

theorem sound_new : new.Sound := by
  constructor
  · rintro _ ⟨⟩
  · rintro _ ⟨⟩

/-- In the runs from a new connection, every call keeps it sound and goes through no null pointer if
and only if in every call that connects Redis accepts the connection. -/
theorem always_keeps_iff (ls : List Call) :
    Transition.Always step Keeps new ls ↔ Transition.Always step Accepted new ls := by
  refine Transition.always_iff Sound (fun c l h => h.keeps_iff l) ?_ sound_new
  rintro c l c' - ⟨c'', hstep', hsound⟩ hstep
  obtain rfl : c'' = c' := Option.some.inj (hstep'.symm.trans hstep)
  exact hsound

/-- Redis refuses the password in `Connect`, and the next command goes out on the same context. -/
theorem not_always_keeps_of_refused :
    ¬ ∀ ls, Transition.Always step Keeps new ls := by
  intro hall
  have hrun := hall [.connect [49] 6379 [120] ⟨some false, some (.error []), none⟩,
    .query ⟨none, none, some .nil⟩]
  obtain ⟨c', hstep, hsound⟩ := (hrun.next rfl).1
  obtain rfl : (⟨some ⟨false, false⟩, [49], [120], 6379, [([120], ⟨false, false⟩)]⟩ :
    FxRedisConnection) = c' := Option.some.inj hstep
  exact absurd (hsound.sent ([120], ⟨false, false⟩) (by simp)) (by decide)

/-! ### What a reader gets -/

/-- `CheckConnection` meets no null context and no null answer to `AUTH`. -/
def Connects (c : FxRedisConnection) (answers : RedisAnswers) : Prop :=
  c.pRedisContext = none → answers.connect ≠ none ∧
    (answers.connect = some false → c.szPassword ≠ [] → answers.auth ≠ none)

/-- A context is there, or comes without an error. -/
def Reaches (c : FxRedisConnection) (answers : RedisAnswers) : Prop :=
  c.pRedisContext ≠ none ∨ answers.connect = some false

theorem reConnect_none_iff :
    c.reConnect answers = none ↔
      ¬ (answers.connect ≠ none ∧
        (answers.connect = some false → c.szPassword ≠ [] → answers.auth ≠ none)) := by
  rw [reConnect]
  rcases hanswer : answers.connect with _ | _ | _
  · simp
  · by_cases hpassword : c.szPassword = []
    · simp [hpassword]
    · cases hauth : answers.auth with
      | none => simp [hpassword]
      | some reply => by_cases herror : reply.isError = true <;> simp [hpassword, herror]
  · simp

/-- A context is there behind `ReConnect` where it came without an error. -/
theorem reConnect_isSome (hconn : c.reConnect answers = some (ok, c')) :
    c'.pRedisContext.isSome = true ↔ answers.connect = some false := by
  constructor
  · intro hsome
    obtain ⟨-, -, hnone | ⟨authenticated, -, hanswer⟩⟩ := reConnect_same hconn
    · simp [hnone] at hsome
    · exact hanswer
  · intro hanswer
    rw [reConnect, hanswer] at hconn
    simp only at hconn
    split_ifs at hconn
    · obtain ⟨-, rfl⟩ := Prod.mk.inj (Option.some.inj hconn)
      rfl
    · cases hauth : answers.auth with
      | none => simp [hauth] at hconn
      | some reply =>
        simp only [hauth] at hconn
        split_ifs at hconn <;>
          (obtain ⟨-, rfl⟩ := Prod.mk.inj (Option.some.inj hconn); rfl)

theorem checkConnection_none_iff : c.checkConnection answers = none ↔ ¬ Connects c answers := by
  rw [checkConnection, Connects]
  cases hcontext : c.pRedisContext with
  | some context => simp
  | none => simp [reConnect_none_iff]

theorem checkConnection_reaches (hcheck : c.checkConnection answers = some (ok, c')) :
    ok = true ↔ Reaches c answers := by
  obtain ⟨rfl, -, -⟩ := checkConnection_same hcheck
  rw [checkConnection] at hcheck
  rw [Reaches]
  cases hcontext : c.pRedisContext with
  | some context =>
    rw [hcontext] at hcheck
    obtain ⟨-, rfl⟩ := Prod.mk.inj (Option.some.inj hcheck)
    simp [hcontext]
  | none =>
    simp only [hcontext] at hcheck
    obtain ⟨⟨ok', c''⟩, hconn, heq⟩ := Option.map_eq_some_iff.mp hcheck
    obtain ⟨-, rfl⟩ := Prod.mk.inj heq
    simpa using reConnect_isSome hconn

theorem queryReader_none_iff (reply : Option RedisReply) :
    c.queryReader answers reply = none ↔ ¬ Connects c answers := by
  have hstep := c.step_queryReader answers reply
  rw [step] at hstep
  rw [← checkConnection_none_iff, ← Option.map_eq_none_iff, hstep, Option.map_eq_none_iff]

/-- A reader without a reply has what Redis answered, unless that was an error. -/
theorem queryReader_reply {nRetCode : Int} {reply : Option RedisReply}
    (hquery : c.queryReader answers none = some (nRetCode, reply, c')) :
    (Reaches c answers → reply = answers.command.filter (·.isError = false)) ∧
      (¬ Reaches c answers → reply = none) := by
  rw [queryReader] at hquery
  cases hcheck : c.checkConnection answers with
  | none => simp [hcheck] at hquery
  | some r =>
    obtain ⟨ok, c''⟩ := r
    have hreaches := checkConnection_reaches hcheck
    obtain ⟨hok, -, -⟩ := checkConnection_same hcheck
    simp only [hcheck, Option.bind_eq_bind, Option.bind_some] at hquery
    split_ifs at hquery with hfalse
    · obtain ⟨-, hrest⟩ := Prod.mk.inj (Option.some.inj hquery)
      obtain ⟨rfl, -⟩ := Prod.mk.inj hrest
      exact ⟨fun hc => by simp [hreaches.mpr hc] at hfalse, fun _ => rfl⟩
    · have htrue : ok = true := by simpa using hfalse
      refine ⟨fun _ => ?_, fun hc => absurd (hreaches.mp htrue) hc⟩
      obtain ⟨context, hcontext⟩ := Option.isSome_iff_exists.mp (hok ▸ htrue)
      rw [redisCommand_some hcontext] at hquery
      cases hcommand : answers.command with
      | none =>
        simp only [hcommand] at hquery
        obtain ⟨-, hrest⟩ := Prod.mk.inj (Option.some.inj hquery)
        obtain ⟨rfl, -⟩ := Prod.mk.inj hrest
        rfl
      | some reply' =>
        simp only [hcommand, Option.pure_def] at hquery
        split_ifs at hquery with herror
        · obtain ⟨-, hrest⟩ := Prod.mk.inj (Option.some.inj hquery)
          obtain ⟨rfl, -⟩ := Prod.mk.inj hrest
          simp [Option.filter, herror]
        · obtain ⟨-, hrest⟩ := Prod.mk.inj (Option.some.inj hquery)
          obtain ⟨rfl, -⟩ := Prod.mk.inj hrest
          simp [Option.filter, herror]

end FxRedisConnection
