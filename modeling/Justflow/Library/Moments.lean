import Justflow.Library.Processes

/-!
# What was true while a process ran

`Since before P later` says that `P` held at a moment between the two histories: when a process
that started with the first of them ends with the second, the moment lies within its run.
-/

namespace Service

variable {World : Type}

/-- At some moment from the first history to the second one. -/
def Since (before : List World) (P : World → Prop) (later : List World) : Prop :=
  ∃ world past, before <:+ world :: past ∧ world :: past <:+ later ∧ P world

variable {before history after : List World} {P Q : World → Prop}

namespace Since

theorem later (since : Since before P history) (grows : history <:+ after) :
    Since before P after := by
  obtain ⟨world, past, begun, ended, holds⟩ := since
  exact ⟨world, past, begun, ended.trans grows, holds⟩

theorem earlier (since : Since history P after) (grows : before <:+ history) :
    Since before P after := by
  obtain ⟨world, past, begun, ended, holds⟩ := since
  exact ⟨world, past, grows.trans begun, ended, holds⟩

theorem mono (since : Since before P after) (h : ∀ world, P world → Q world) :
    Since before Q after := by
  obtain ⟨world, past, begun, ended, holds⟩ := since
  exact ⟨world, past, begun, ended, h world holds⟩

/-- A request is served in a world that the process has lived to see. -/
theorem served {world next : World} {past : List World} (grows : before <:+ world :: past)
    (holds : P world) : Since before P (next :: world :: past) :=
  ⟨world, past, grows, List.suffix_cons _ _, holds⟩

theorem once (since : Since before P after) : Once P after := by
  obtain ⟨world, past, -, ended, holds⟩ := since
  exact ⟨world, ended.subset List.mem_cons_self, holds⟩

end Since

end Service
