import BufferedCan.Controller.Setup

/-! What is known once the settings have passed their checks. -/

namespace BufferedCan

namespace Buffer

theorem at?_eq_some {size : DataSize} {index : Nat} {buffer : Buffer}
    (found : Buffer.at? size index = some buffer) : buffer.size = size ∧ buffer.index = index := by
  unfold Buffer.at? at found
  split at found
  · simp only [Option.some.injEq] at found
    subst found
    exact ⟨rfl, rfl⟩
  · simp at found

end Buffer

namespace Settings

structure Buffers (settings : Settings) (transmit receive : Buffer) : Prop where
  transmitSize : transmit.size = settings.mode.dataSize
  receiveSize : receive.size = settings.mode.dataSize
  transmitIndex : transmit.index = settings.buffers.transmit
  receiveIndex : receive.index = settings.buffers.receive
  apart : transmit.index ≠ receive.index

theorem buffers_of_some {settings : Settings} {transmit receive : Buffer}
    (found : settings.buffers? = some (transmit, receive)) :
    settings.Buffers transmit receive := by
  unfold buffers? at found
  cases first : Buffer.at? settings.mode.dataSize settings.buffers.transmit with
  | none => simp [first] at found
  | some left =>
      cases second : Buffer.at? settings.mode.dataSize settings.buffers.receive with
      | none => simp [first, second] at found
      | some right =>
          by_cases same : left.index = right.index
          · simp [first, second, same] at found
          · simp only [first, second, same, Option.bind_eq_bind, Option.bind_some, ne_eq,
              not_false_eq_true, if_true, Option.some.injEq, Prod.mk.injEq] at found
            obtain ⟨rfl, rfl⟩ := found
            exact ⟨(Buffer.at?_eq_some first).1, (Buffer.at?_eq_some second).1,
              (Buffer.at?_eq_some first).2, (Buffer.at?_eq_some second).2, same⟩

/-- The rates are for the mode that the settings ask for, and each prescaler fits its timing. -/
inductive RatesFor (settings : Settings) (clock : Clock) : Rates → Prop
  | classic {prescaler : Nat} (mode : settings.mode = .classic)
      (nominal : settings.nominal.prescaler clock.frequency .classic = .ok (.ok prescaler)) :
      RatesFor settings clock (.classic prescaler)
  | flexible {rate : FlexibleRate} {nominalPrescaler dataPrescaler : Nat}
      (mode : settings.mode = .flexible rate)
      (nominal : settings.nominal.prescaler clock.frequency .nominal = .ok (.ok nominalPrescaler))
      (data : rate.dataTiming.prescaler clock.frequency .dataPhase = .ok (.ok dataPrescaler))
      (delay : delayFits rate = true) :
      RatesFor settings clock (.flexible rate nominalPrescaler dataPrescaler)

theorem ratesFor_of_ok {settings : Settings} {clock : Clock} {rates : Rates}
    (found : settings.rates clock = .ok (.ok rates)) : settings.RatesFor clock rates := by
  unfold Settings.rates at found
  cases mode : settings.mode with
  | classic =>
      simp only [mode] at found
      cases nominal : settings.nominal.prescaler clock.frequency .classic with
      | error fault => simp [nominal, bind, Except.bind] at found
      | ok outcome =>
          cases outcome with
          | error error => simp [nominal, bind, Except.bind, pure, Except.pure] at found
          | ok prescaler =>
              simp only [nominal, bind, Except.bind, pure, Except.pure, Except.ok.injEq] at found
              subst found
              exact .classic mode nominal
  | flexible rate =>
      simp only [mode] at found
      cases nominal : settings.nominal.prescaler clock.frequency .nominal with
      | error fault => simp [nominal, bind, Except.bind] at found
      | ok outcome =>
          cases outcome with
          | error error => simp [nominal, bind, Except.bind, pure, Except.pure] at found
          | ok prescaler =>
              cases data : rate.dataTiming.prescaler clock.frequency .dataPhase with
              | error fault => simp [nominal, data, bind, Except.bind] at found
              | ok outcome =>
                  cases outcome with
                  | error error =>
                      simp [nominal, data, bind, Except.bind, pure, Except.pure] at found
                  | ok dataPrescaler =>
                      by_cases delay : delayFits rate = true
                      · simp only [nominal, data, delay, bind, Except.bind, pure, Except.pure,
                          if_true, Except.ok.injEq] at found
                        subst found
                        exact .flexible mode nominal data delay
                      · simp [nominal, data, delay, bind, Except.bind, pure, Except.pure] at found

structure Planned (settings : Settings) (clock : Clock) (plan : Plan) : Prop where
  buffers : settings.Buffers plan.transmitBuffer plan.receiveBuffer
  rates : settings.RatesFor clock plan.rates

theorem planned_of_ok {settings : Settings} {clock : Clock} {plan : Plan}
    (found : settings.plan clock = .ok (.ok plan)) : settings.Planned clock plan := by
  unfold Settings.plan at found
  cases chosen : settings.buffers? with
  | none => simp [chosen] at found
  | some buffers =>
      obtain ⟨transmit, receive⟩ := buffers
      simp only [chosen] at found
      cases rated : settings.rates clock with
      | error fault => simp [rated, bind, Except.bind] at found
      | ok outcome =>
          cases outcome with
          | error error => simp [rated, bind, Except.bind, pure, Except.pure] at found
          | ok rates =>
              simp only [rated, bind, Except.bind, pure, Except.pure, Except.ok.injEq] at found
              subst found
              exact ⟨buffers_of_some chosen, ratesFor_of_ok rated⟩

end Settings

end BufferedCan
