import WorkflowPlatform.Foundation.Sweep
import WorkflowPlatform.Notify.Recipients

/-! # One mail after the other

Both mail tasks send to their recipients in a loop, and a mail that cannot be sent raises
an exception that nothing in the loop catches. A recipient whose mail fails costs those after
him theirs.
-/

namespace WorkflowPlatform

open Python WorkflowEngine

/-! ## Sending -/

/-- What the mail functions read of the settings. -/
structure Settings where
  smtpUser : Option String
  smtpPassword : Option String
  emailFrom : String
  frontendUrl : String

def Settings.smtpConfigured (settings : Settings) : Bool :=
  settings.smtpUser.any (· ≠ "") && settings.smtpPassword.any (· ≠ "")

/-- The settings, and the addresses for which rendering or sending raises. -/
structure Mailer where
  settings : Settings
  fails : String → Bool

/-- A message, with what its HTML part is rendered from. -/
structure EmailMessage where
  subject : String
  sender : String
  recipient : String
  templateName : String
  context : List (String × String)
  deriving DecidableEq

/-- The addresses `send_email` was called for, and the mails that went out. -/
structure Outbox where
  attempted : List String
  sent : List EmailMessage
  deriving DecidableEq

structure SendError where
  toEmail : String

abbrev MailTx := ExceptT SendError (StateM Outbox)

namespace NotificationService

variable (mailer : Mailer)

/-- Without an account at the mail server the mail is skipped. -/
def sendEmail (toEmail subject templateName : String) (context : List (String × String)) :
    MailTx PUnit := do
  modify fun outbox => { outbox with attempted := outbox.attempted ++ [toEmail] }
  if mailer.settings.smtpConfigured then
    -- the exception is logged and raised again
    if mailer.fails toEmail then throw ⟨toEmail⟩
    let message := ⟨subject, mailer.settings.emailFrom, toEmail, templateName, context⟩
    modify fun outbox => { outbox with sent := outbox.sent ++ [message] }

def notifyTaskAssigned (email workflowName stepName requestId deadline : String) : MailTx PUnit :=
  sendEmail mailer email s!"Task Assignment: {workflowName}" "task_assigned.html"
    [("workflow_name", workflowName), ("step_name", stepName), ("request_id", requestId),
      ("deadline", deadline),
      ("action_url", s!"{mailer.settings.frontendUrl}/requests/{requestId}")]

def notifySlaBreach (emails : List String) (workflowName stepName requestId deadline : String) :
    MailTx PUnit :=
  forM emails fun email =>
    sendEmail mailer email s!"URGENT: SLA Breach - {workflowName}" "sla_breach.html"
      [("workflow_name", workflowName), ("step_name", stepName), ("request_id", requestId),
        ("deadline", deadline)]

end NotificationService

open NotificationService

/-- The task `notify_new_assignment`. It returns the number of its recipients, if any. -/
def notifyNewAssignment (mailer : Mailer) (order : RowOrder (UserRow × RoleRow)) (db : Database)
    (accounts : Accounts) (stepId : Uuid) (requestId workflowName stepName deadline : String) :
    MailTx (Option ℕ) :=
  match db.step? stepId with
  | none => pure none
  | some stepDef => do
      let emails := assignmentEmails order accounts stepDef
      if emails.isEmpty then return none
      forM emails fun email =>
        notifyTaskAssigned mailer email workflowName stepName requestId deadline
      return some emails.length

/-- The recipients of an assignment mail; there are none for a step that is gone. -/
def recipients (order : RowOrder (UserRow × RoleRow)) (db : Database) (accounts : Accounts)
    (stepId : Uuid) : List String :=
  match db.step? stepId with
  | none => []
  | some stepDef => assignmentEmails order accounts stepDef

/-- What a mail function leaves behind, whether it returns or raises. -/
def outboxOf {Value : Type} (program : MailTx Value) : Outbox := (program.run.run ⟨[], []⟩).2

/-! ## Who gets his mail -/

namespace Mailer

variable (mailer : Mailer)

def delivers (email : String) : Bool := mailer.settings.smtpConfigured && !mailer.fails email

def raises (email : String) : Bool := mailer.settings.smtpConfigured && mailer.fails email

end Mailer

/-- Every entry of the list is tried once, and those whose mail can be sent get one mail each. -/
structure ReachesEach (mailer : Mailer) (emails : List String) (outbox : Outbox) : Prop where
  attempted : ∀ email, outbox.attempted.count email = emails.count email
  received : ∀ email, (outbox.sent.map (·.recipient)).count email =
    if mailer.delivers email then emails.count email else 0

/-- There is no account at the mail server, or at most the last mail fails. -/
def SilencesNobody (mailer : Mailer) (emails : List String) : Prop :=
  mailer.settings.smtpConfigured = true → ∀ email ∈ emails.dropLast, mailer.fails email = false

variable {mailer : Mailer}

theorem silencesNobody_iff {emails : List String} :
    SilencesNobody mailer emails ↔ Sweep.OnlyLast mailer.raises emails := by
  cases hconfigured : mailer.settings.smtpConfigured <;>
    simp [SilencesNobody, Sweep.OnlyLast, Mailer.raises, hconfigured]

/-- The outbox after one more mail. -/
def posted (mailer : Mailer) (message : String → EmailMessage) (outbox : Outbox) (email : String) :
    Outbox where
  attempted := outbox.attempted ++ [email]
  sent := if mailer.delivers email then outbox.sent ++ [message email] else outbox.sent

theorem run_sendEmail (toEmail subject templateName : String) (context : List (String × String))
    (outbox : Outbox) :
    (sendEmail mailer toEmail subject templateName context).run.run outbox =
      (if mailer.raises toEmail then .error ⟨toEmail⟩ else .ok ⟨⟩,
        posted mailer (⟨subject, mailer.settings.emailFrom, ·, templateName, context⟩)
          outbox toEmail) := by
  unfold sendEmail posted Mailer.raises Mailer.delivers
  cases mailer.settings.smtpConfigured <;> cases mailer.fails toEmail <;> rfl

theorem foldl_posted (message : String → EmailMessage) (outbox : Outbox) (emails : List String) :
    emails.foldl (posted mailer message) outbox =
      ⟨outbox.attempted ++ emails,
        outbox.sent ++ (emails.filter mailer.delivers).map message⟩ := by
  induction emails generalizing outbox with
  | nil => simp
  | cons email rest ih =>
      rw [List.foldl_cons, ih]
      cases hdelivers : mailer.delivers email <;> simp [posted, hdelivers]

/-- A loop that sends one mail to each address leaves behind the mails it came to. -/
theorem outboxOf_forM_send {send : String → MailTx PUnit} {message : String → EmailMessage}
    (hsend : ∀ email outbox, (send email).run.run outbox =
      (if mailer.raises email then .error ⟨email⟩ else .ok ⟨⟩, posted mailer message outbox email))
    (emails : List String) :
    outboxOf (forM emails send) =
      ⟨Sweep.tried mailer.raises emails,
        ((Sweep.tried mailer.raises emails).filter mailer.delivers).map message⟩ := by
  rw [outboxOf, Sweep.run_forM send (posted mailer message) SendError.mk hsend, foldl_posted]
  simp only [List.nil_append]

/-- A result that is returned in the end changes nothing in the outbox. -/
theorem outboxOf_bind_pure {Value : Type} (program : MailTx PUnit) (value : Value) :
    outboxOf (program >>= fun _ => pure value) = outboxOf program := by
  unfold outboxOf
  rw [ExceptT.run_bind, StateT.run_bind]
  rcases program.run.run ⟨[], []⟩ with ⟨result, outbox⟩
  cases result <;> rfl

/-- The mails that a loop came to reach everybody exactly if it came to all. -/
theorem reachesEach_tried_iff {message : String → EmailMessage}
    (hrecipient : ∀ email, (message email).recipient = email) (emails : List String) :
    ReachesEach mailer emails ⟨Sweep.tried mailer.raises emails,
        ((Sweep.tried mailer.raises emails).filter mailer.delivers).map message⟩ ↔
      SilencesNobody mailer emails := by
  rw [silencesNobody_iff, ← Sweep.tried_eq_self_iff]
  constructor
  · intro hreaches
    exact Sweep.tried_eq_self_of_perm (List.perm_iff_count.mpr hreaches.attempted)
  · intro hall
    rw [hall]
    refine ⟨fun email => rfl, fun email => ?_⟩
    have hmap : ((emails.filter mailer.delivers).map message).map (·.recipient) =
        emails.filter mailer.delivers := by simp [Function.comp_def, hrecipient]
    rw [hmap]
    cases hdelivers : mailer.delivers email with
    | true => rw [List.count_filter hdelivers, if_pos rfl]
    | false =>
        rw [if_neg Bool.false_ne_true, List.count_eq_zero, List.mem_filter, hdelivers]
        simp

/-- Nobody is without his mail where there are no recipients. -/
theorem reachesEach_nil : ReachesEach mailer [] ⟨[], []⟩ := ⟨fun _ => rfl, by simp⟩

theorem silencesNobody_nil : SilencesNobody mailer [] := by simp [SilencesNobody]

/-! ## The two functions -/

section Functions

variable {workflowName stepName requestId deadline : String}

theorem reachesEach_notifySlaBreach_iff (emails : List String) :
    ReachesEach mailer emails
        (outboxOf (notifySlaBreach mailer emails workflowName stepName requestId deadline)) ↔
      SilencesNobody mailer emails := by
  rw [notifySlaBreach, outboxOf_forM_send fun email outbox => run_sendEmail email _ _ _ outbox]
  exact reachesEach_tried_iff (fun _ => rfl) emails

theorem reachesEach_notifyNewAssignment_iff (order : RowOrder (UserRow × RoleRow)) (db : Database)
    (accounts : Accounts) (stepId : Uuid) :
    ReachesEach mailer (recipients order db accounts stepId)
        (outboxOf (notifyNewAssignment mailer order db accounts stepId requestId workflowName
          stepName deadline)) ↔
      SilencesNobody mailer (recipients order db accounts stepId) := by
  unfold notifyNewAssignment recipients
  cases db.step? stepId with
  | none => exact iff_of_true reachesEach_nil silencesNobody_nil
  | some stepDef =>
      dsimp only
      split
      next hempty =>
        rw [List.isEmpty_iff.mp hempty]
        exact iff_of_true reachesEach_nil silencesNobody_nil
      next =>
        rw [outboxOf_bind_pure]
        unfold notifyTaskAssigned
        rw [outboxOf_forM_send fun email outbox => run_sendEmail email _ _ _ outbox]
        exact reachesEach_tried_iff (fun _ => rfl) _

end Functions

/-- A mail that cannot be sent silences nobody, in either task, exactly if there is no account
at the mail server or the mail is the last of its loop. -/
theorem mails_reach_each_iff (mailer : Mailer) (workflowName stepName requestId deadline : String)
    (emails : List String) (order : RowOrder (UserRow × RoleRow)) (db : Database)
    (accounts : Accounts) (stepId : Uuid) :
    (ReachesEach mailer emails
        (outboxOf (notifySlaBreach mailer emails workflowName stepName requestId deadline)) ↔
      SilencesNobody mailer emails) ∧
    (ReachesEach mailer (recipients order db accounts stepId)
        (outboxOf (notifyNewAssignment mailer order db accounts stepId requestId workflowName
          stepName deadline)) ↔
      SilencesNobody mailer (recipients order db accounts stepId)) :=
  ⟨reachesEach_notifySlaBreach_iff emails,
    reachesEach_notifyNewAssignment_iff order db accounts stepId⟩

/-! ### An administrator who has left -/

namespace Sample

/-- The first of two administrators is gone. -/
def mailServer : Mailer where
  settings := ⟨some "smtp", some "secret", "noreply@workflow-platform.com", "http://localhost:3000"⟩
  fails := (· = "ada@workflow-platform.com")

def admins : List String := ["ada@workflow-platform.com", "bob@workflow-platform.com"]

end Sample

/-- The second administrator hears nothing of the breach. -/
theorem mails_silenced :
    ¬∀ (mailer : Mailer) (workflowName stepName requestId deadline : String)
      (emails : List String) (order : RowOrder (UserRow × RoleRow)) (db : Database)
      (accounts : Accounts) (stepId : Uuid),
      ReachesEach mailer emails
          (outboxOf (notifySlaBreach mailer emails workflowName stepName requestId deadline)) ∧
        ReachesEach mailer (recipients order db accounts stepId)
          (outboxOf (notifyNewAssignment mailer order db accounts stepId requestId workflowName
            stepName deadline)) := by
  intro hreaches
  have hbreach := (hreaches Sample.mailServer "Purchase" "Review" "1" "2026-01-02T00:00:00"
    Sample.admins .stored Database.empty Sample.staff 0).1
  exact absurd (hbreach.attempted "bob@workflow-platform.com") (by decide)

end WorkflowPlatform
