import JunoMiner.Bytes
import JunoMiner.Target
import JunoMiner.Hex
import JunoMiner.Serialize
import JunoMiner.Json
import JunoMiner.Config
import JunoMiner.Template
import JunoMiner.Header
import JunoMiner.RandomX
import JunoMiner.Pool.Basic
import JunoMiner.Pool.Ops
import JunoMiner.Pool.Slots
import JunoMiner.Pool.Frame
import JunoMiner.Pool.WellFormed
import JunoMiner.Pool.Keyed
import JunoMiner.Engine.Basic
import JunoMiner.Engine.Session
import JunoMiner.Engine.Solution
import JunoMiner.Engine.Nonce
import JunoMiner.Main.Basic
import JunoMiner.Main.Seeds
import JunoMiner.Main.Loop
import JunoMiner.Main.Sessions
import JunoMiner.Main.Keyed
import JunoMiner.Main.Submit
import JunoMiner.Main.Stop
import JunoMiner.Main.Prompt
import JunoMiner.Rpc
