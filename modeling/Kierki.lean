import Kierki.Lib.Lts
import Kierki.Lib.RegExp
import Kierki.Lib.Calls
import Kierki.Lib.Locks
import Kierki.Lib.Getline
import Kierki.Lib.Frames
import Kierki.Common
import Kierki.Regex
import Kierki.Senders
import Kierki.Lines
import Kierki.PointsCalculator
import Kierki.Scoring
import Kierki.Sockets
import Kierki.Game
import Kierki.Klient.Printer
import Kierki.Klient.Worker
import Kierki.Klient.ServerLines
import Kierki.Klient.Replay
import Kierki.Klient.Restart
import Kierki.Klient.Answers
import Kierki.Klient.Agreement
import Kierki.Serwer.Shared
import Kierki.Serwer.ParseMessage
import Kierki.Serwer.SeatThread
import Kierki.Serwer.LegalMoves
import Kierki.Serwer.MainThread
import Kierki.FileReader
import Kierki.CmdArgsParsers
import Kierki.Serwer.Machine
import Kierki.Serwer.ThreadMoves
import Kierki.Serwer.Views
import Kierki.Serwer.MainMoves
import Kierki.Serwer.Seats
import Kierki.Serwer.Release
import Kierki.Serwer.BarrierCount
import Kierki.Serwer.BarrierFlag
import Kierki.Serwer.InFlight
import Kierki.Serwer.Bytes
import Kierki.Serwer.Turn
import Kierki.Serwer.TurnKept
import Kierki.Serwer.Calm
import Kierki.Serwer.Wake
import Kierki.Serwer.Suits
import Kierki.Serwer.Departures
import Kierki.Serwer.Play
import Kierki.Serwer.Queue
import Kierki.Serwer.Outgoing
import Kierki.Serwer.DealLines
import Kierki.Serwer.TakenReplay
import Kierki.Serwer.Tricks
import Kierki.Serwer.TrickNumbers
import Kierki.Serwer.Scores
import Kierki.Serwer.Bandit
import Kierki.Serwer.Joining
import Kierki.Serwer.Waits
import Kierki.Mutexes.Calls
import Kierki.Mutexes.Worker
import Kierki.Mutexes.SeatCalls
import Kierki.Mutexes.SeatSteps
import Kierki.Mutexes.Discipline
import Kierki.Lib.Threads
import Kierki.Process.MainThread
import Kierki.Process.Memory
import Kierki.Process.Pacts
import Kierki.Process.Worker
import Kierki.Process.RunClient
import Kierki.Process.Interleaved
import Kierki.Serwer.Failing.Program
import Kierki.Serwer.Failing.MainCalls
import Kierki.Serwer.Failing.MainSteps
import Kierki.Serwer.Failing.ConnectionCalls
import Kierki.Serwer.Failing.Descriptors
import Kierki.Serwer.Pipes
import Kierki.Serwer.Awaited
import Kierki.Klient.Requests
import Kierki.Table.Machine
import Kierki.Table.Work
import Kierki.Table.Talk
import Kierki.Table.Board
import Kierki.Table.InStep
import Kierki.Table.Attends
import Kierki.Table.Attuned
import Kierki.Table.Kept
import Kierki.Table.OnTime
import Kierki.Table.Waiting
import Kierki.Table.Weights
import Kierki.Table.Ending
import Kierki.Table.Told
import Kierki.Table.Course
import Kierki.Table.Chronicle
