import TriviaServer.Interaction.Program
import TriviaServer.Interaction.Service
import TriviaServer.Interaction.Replay
import TriviaServer.Interaction.History
import TriviaServer.Interaction.Register
import TriviaServer.Interaction.Discipline
import TriviaServer.Interaction.Simulation
import TriviaServer.Interaction.Ownership
import TriviaServer.Interaction.Locks
import TriviaServer.Coding.Words
import TriviaServer.Regex.Pattern
import TriviaServer.Regex.Spans
import TriviaServer.Regex.Languages
import TriviaServer.Calendar.Gregorian
import TriviaServer.Model.Basic
import TriviaServer.Model.Json
import TriviaServer.Model.Game
import TriviaServer.Model.Database
import TriviaServer.Model.Operations
import TriviaServer.Model.Validator
import TriviaServer.Model.Expressions
import TriviaServer.Model.Managers
import TriviaServer.Model.Handlers
import TriviaServer.Model.Server
import TriviaServer.Model.SocketHelper
import TriviaServer.Model.JsonSerializer
import TriviaServer.Model.ConfigLoader
import TriviaServer.Model.Communicator
import TriviaServer.Model.Mutexes
import TriviaServer.Verification.RequestStream
import TriviaServer.Verification.Framing
import TriviaServer.Verification.Replays
import TriviaServer.Verification.Rules
import TriviaServer.Verification.Reading
import TriviaServer.Verification.Accounts
import TriviaServer.Verification.ErrorAnswers
import TriviaServer.Verification.Standing
import TriviaServer.Verification.Obedience
import TriviaServer.Verification.Departure
import TriviaServer.Verification.Booking
import TriviaServer.Verification.LoggedNames
import TriviaServer.Verification.Removals
import TriviaServer.Verification.MenuAccess
import TriviaServer.Verification.Moves
import TriviaServer.Verification.Rooms
import TriviaServer.Verification.Requests
import TriviaServer.Verification.Responses
import TriviaServer.Verification.Questions
import TriviaServer.Verification.Scores
import TriviaServer.Verification.LeaveGame
import TriviaServer.Verification.Statistics
import TriviaServer.Verification.SubmitAll
import TriviaServer.Verification.Erasure
import TriviaServer.Verification.GameStart
import TriviaServer.Verification.Answers
import TriviaServer.Verification.Holders
import TriviaServer.Verification.Lobby
import TriviaServer.Verification.RoomLife
import TriviaServer.Verification.Membership
import TriviaServer.Verification.GamePlayers
import TriviaServer.Verification.FinalResults
import TriviaServer.Verification.Deserializers
import TriviaServer.Verification.RoomNumbers
import TriviaServer.Verification.QuestionPool
import TriviaServer.Verification.Schedule
import TriviaServer.Verification.Averages
import TriviaServer.Verification.BetterPlay
import TriviaServer.Verification.LifetimeAverage
import TriviaServer.Verification.Guesses
import TriviaServer.Verification.AnswerMarks
import TriviaServer.Verification.IPAddresses
import TriviaServer.Verification.ConfigFiles
import TriviaServer.Verification.Birthdays
import TriviaServer.Verification.Traffic
import TriviaServer.Verification.Connections
import TriviaServer.Verification.Conversations
import TriviaServer.Verification.Decoding
import TriviaServer.Verification.Confinement
import TriviaServer.Verification.Submissions
import TriviaServer.Verification.Authority
import TriviaServer.Verification.Lifetimes
import TriviaServer.Verification.Expressions
import TriviaServer.Verification.Emails
import TriviaServer.Verification.Profiles
import TriviaServer.Verification.QuestionSupply
import TriviaServer.Verification.Draws
import TriviaServer.Verification.LockOrder
