import ProcessingCatalog.Library.Program

/-!
# A layer between a program and what answers it

A layer rewrites every call of a program before it is answered, and what comes
back before the program sees it. Answering through the layer and rewriting the
program beforehand are the same (`run_translate`), so what is known of the calls
that arrive is known of the program behind the layer.
-/

namespace Effect

/-- What a layer sends for a call, and what it hands back of the reply. -/
structure Translation (σ τ : Signature) where
  send : σ.Call → τ.Call
  receive : (request : σ.Call) → τ.Reply (send request) → σ.Reply request

namespace Translation

variable {σ τ : Signature}

/-- Answer the calls of `σ` by what a handler answers to what the layer sends. -/
def answering {S : Type} (layer : Translation σ τ)
    (handler : S → (request : τ.Call) → τ.Reply request × S) (state : S) (request : σ.Call) :
    σ.Reply request × S :=
  let (reply, state') := handler state (layer.send request)
  (layer.receive request reply, state')

end Translation

namespace Program

variable {σ τ : Signature} {ε α β : Type}

/-- The program, with its calls as the layer sends them. -/
def translate (layer : Translation σ τ) : Program σ ε α → Program τ ε α
  | .pure value => .pure value
  | .throw error => .throw error
  | .call request resume =>
      .call (layer.send request) fun reply => (resume (layer.receive request reply)).translate layer

variable (layer : Translation σ τ)

@[simp]
theorem translate_pure (value : α) :
    (.pure value : Program σ ε α).translate layer = .pure value := rfl

@[simp]
theorem translate_throw (error : ε) :
    (.throw error : Program σ ε α).translate layer = .throw error := rfl

@[simp]
theorem translate_ofExcept (outcome : Except ε α) :
    (.ofExcept outcome : Program σ ε α).translate layer = .ofExcept outcome := by
  cases outcome <;> rfl

@[simp]
theorem translate_bind (program : Program σ ε α) (next : α → Program σ ε β) :
    (program >>= next).translate layer =
      program.translate layer >>= fun value => (next value).translate layer := by
  induction program with
  | pure value => rfl
  | throw error => rfl
  | call request resume ih => exact congrArg (call _) (funext fun _ => ih _)

@[simp]
theorem translate_tryCatch (program : Program σ ε α) (onError : ε → Program σ ε α) :
    (tryCatch program onError).translate layer =
      tryCatch (program.translate layer) fun error => (onError error).translate layer := by
  induction program with
  | pure value => rfl
  | throw error => rfl
  | call request resume ih => exact congrArg (call _) (funext fun _ => ih _)

/-- Running a program behind the layer is running it as translated. -/
theorem run_translate {S : Type} (handler : S → (request : τ.Call) → τ.Reply request × S)
    (state : S) (program : Program σ ε α) :
    (program.translate layer).run handler state =
      program.run (layer.answering handler) state := by
  induction program generalizing state with
  | pure value => rfl
  | throw error => rfl
  | call request resume ih => exact ih _ _

end Program

end Effect
